import KeyAudit.Text.Basic

/-!
# Blank characters and trimming

The characters that count as blank space around a text, and the removal of the
blank ends of a text. Blank are the tab and the line ends of ASCII, the four
information separators, the space, and the spaces and line ends of Unicode; the
zero width space and the byte order mark are not.

* `trim` removes the blank characters at both ends and nothing else;
* `trimBy` does the same for any other notion of a blank character.
-/

namespace KeyAudit.Text

/-- Whether a code point counts as blank space. -/
def isBlank (c : CodePoint) : Bool :=
  let n := c.toNat
  (0x9 ≤ n && n ≤ 0xD) || (0x1C ≤ n && n ≤ 0x20) || n == 0x85 || n == 0xA0 || n == 0x1680 ||
    (0x2000 ≤ n && n ≤ 0x200A) || n == 0x2028 || n == 0x2029 || n == 0x202F || n == 0x205F ||
    n == 0x3000

/-- The text without what satisfies `blank` at its start. -/
def trimStartBy (blank : CodePoint → Bool) (s : Text) : Text :=
  s.dropWhile blank

/-- The text without what satisfies `blank` at its end. -/
def trimEndBy (blank : CodePoint → Bool) (s : Text) : Text :=
  (s.reverse.dropWhile blank).reverse

/-- The text without what satisfies `blank` at both ends. -/
def trimBy (blank : CodePoint → Bool) (s : Text) : Text :=
  trimEndBy blank (trimStartBy blank s)

/-- The text without its blank ends. -/
def trim (s : Text) : Text :=
  trimBy isBlank s

/-- Trimming leaves a piece of the text. -/
theorem trimBy_infix (blank : CodePoint → Bool) (s : Text) : trimBy blank s <:+: s := by
  have hend : ∀ t : Text, trimEndBy blank t <:+: t := fun t =>
    List.reverse_infix.1 (by
      rw [trimEndBy, List.reverse_reverse]
      exact (List.dropWhile_suffix _).isInfix)
  exact (hend _).trans (List.dropWhile_suffix _).isInfix

/-- What is blank goes, up to a first and a last code point that are not. -/
theorem trimBy_between {blank : CodePoint → Bool} {before s after : Text} {first last : CodePoint}
    (hbefore : ∀ c ∈ before, blank c = true) (hafter : ∀ c ∈ after, blank c = true)
    (hfirst : s.head? = some first) (hlast : s.getLast? = some last)
    (hf : blank first = false) (hl : blank last = false) :
    trimBy blank (before ++ s ++ after) = s := by
  obtain ⟨t, rfl⟩ := List.head?_eq_some_iff.1 hfirst
  obtain ⟨u, hu⟩ := List.getLast?_eq_some_iff.1 hlast
  have hstart : trimStartBy blank (before ++ first :: t ++ after) = first :: t ++ after := by
    rw [trimStartBy, List.append_assoc, List.dropWhile_append_of_pos hbefore, List.cons_append,
      List.dropWhile_cons_of_neg (by simp [hf])]
  rw [trimBy, hstart, trimEndBy, List.reverse_append,
    List.dropWhile_append_of_pos fun c hc => hafter c (List.mem_reverse.1 hc), hu,
    List.reverse_append, List.reverse_singleton, List.singleton_append,
    List.dropWhile_cons_of_neg (by simp [hl]), List.reverse_cons, List.reverse_reverse]

end KeyAudit.Text
