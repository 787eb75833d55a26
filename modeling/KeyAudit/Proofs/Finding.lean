import Mathlib
import KeyAudit.Finding

/-!
# Findings by their messages

A key is written into a message as it is, so it may have quotes, numbers and whatever else
messages have around their keys. Still a message tells its finding if it is read from its end:

* the last word tells the kind (`kind_unique_of_mem_lastWords`);
* the word before it is the count, unless the finding is about a value, and what is left is the
  key, in a wording that depends on the kind only (`eq_of_stem_eq`).

So findings with the same message are the same (`eq_of_message_eq`), as a finding about a value
has no count.
-/

namespace KeyAudit

/-! ## Last words -/

namespace Text

variable {s t x y : Text}

/-- The last word of a text and what is in front of it are told by the text. -/
theorem append_space_inj (hx : CodePoint.char ' ' ∉ x) (hy : CodePoint.char ' ' ∉ y)
    (h : s ++ " " ++ x = t ++ " " ++ y) : s = t ∧ x = y := by
  rw [List.append_assoc, List.append_assoc] at h
  wlog hu : ∃ u, t = s ++ u ∧ " " ++ x = u ++ (" " ++ y) generalizing s t x y
  · have hu' := (List.append_eq_append_iff.1 h).resolve_left hu
    exact (this hy hx h.symm hu').imp Eq.symm Eq.symm
  obtain ⟨u, rfl, hu⟩ := hu
  cases u with
  | nil => exact ⟨(List.append_nil s).symm, List.append_cancel_left hu⟩
  | cons c u =>
    -- The space in front of `y` would be one of `x`.
    obtain rfl : x = u ++ (" " ++ y) := (List.cons.inj hu).2
    exact absurd (List.mem_append_right _ List.mem_cons_self) hx

theorem ofString_injective : Function.Injective ofString := fun _ _ h =>
  String.toList_inj.1 (List.map_injective_iff.2 (fun _ _ => CodePoint.char.inj) h)

/-- A number is a word. -/
theorem space_notMem_toString (n : Int) : CodePoint.char ' ' ∉ ofString (toString n) := by
  have hdigits : ∀ n, CodePoint.char ' ' ∉ ofChars (Nat.toDigits 10 n) := fun n hc => by
    obtain ⟨d, hd, hspace⟩ := List.mem_map.1 hc
    rw [CodePoint.char.inj hspace] at hd
    exact absurd (Nat.isDigit_of_mem_toDigits (by decide) (by decide) hd) (by decide)
  cases n with
  | ofNat n =>
    rw [ofString_toString_ofNat]
    exact hdigits n
  | negSucc n =>
    rw [ofString_toString_negSucc]
    exact List.not_mem_cons_of_ne_of_not_mem (by decide) (hdigits _)

end Text

namespace Finding

/-- The last word of a message. -/
def lastWord (f : Finding) : Text :=
  match f.kind with
  | .emptyValue => "value."
  | .unused => times f.count ++ ")."
  | .used => times f.count ++ "."

/-- What a message has in front of its last word. -/
def stem (f : Finding) : Text :=
  match f.kind with
  | .emptyValue => "warning, key '" ++ f.key ++ "' has an empty"
  | .unused => "key '" ++ f.key ++ "' is unused (found" ++ " " ++ (toString f.count : String)
  | .used => "key '" ++ f.key ++ "' is used" ++ " " ++ (toString f.count : String)

/-- The last words of the messages of a kind. -/
def lastWords : FindingKind → List Text
  | .emptyValue => ["value."]
  | .unused => ["time).", "times)."]
  | .used => ["time.", "times."]

variable {f g : Finding} {kind kind' : FindingKind} {word : Text}

theorem message_eq_append (f : Finding) : f.message = f.stem ++ " " ++ f.lastWord := by
  obtain ⟨kind, key, count⟩ := f
  cases kind <;> simp only [message, stem, lastWord, List.append_assoc] <;> rfl

theorem lastWord_mem_lastWords (f : Finding) : f.lastWord ∈ lastWords f.kind := by
  obtain ⟨kind, key, count⟩ := f
  have htimes : times count = "time" ∨ times count = "times" := by
    rw [times]
    split
    · exact .inr rfl
    · exact .inl rfl
  cases kind with
  | emptyValue => exact List.mem_cons_self
  | unused | used => rcases htimes with h | h <;> simp only [lastWord, h] <;> decide

theorem space_notMem_of_mem_lastWords (h : word ∈ lastWords kind) :
    CodePoint.char ' ' ∉ word := by
  revert word
  cases kind <;> decide

/-- Messages of different kinds have different last words. -/
theorem kind_unique_of_mem_lastWords (h : word ∈ lastWords kind) (h' : word ∈ lastWords kind') :
    kind = kind' := by
  revert word
  cases kind <;> cases kind' <;> decide

/-- For a kind, what is in front of the last word tells the key, and the count if it is there. -/
theorem eq_of_stem_eq (hkind : f.kind = g.kind) (h : f.stem = g.stem) :
    f.key = g.key ∧ (f.kind ≠ .emptyValue → f.count = g.count) := by
  obtain ⟨kind, key, count⟩ := f
  obtain ⟨kind', key', count'⟩ := g
  obtain rfl : kind = kind' := hkind
  have hcount : ∀ {s t : Text}, s ++ " " ++ (toString count : String) =
      t ++ " " ++ (toString count' : String) → s = t ∧ count = count' := fun h => by
    obtain ⟨hwording, hnumber⟩ := Text.append_space_inj (Text.space_notMem_toString _)
      (Text.space_notMem_toString _) h
    exact ⟨hwording, Int.repr_inj.1 (Text.ofString_injective hnumber)⟩
  have hkey : ∀ {before after : Text}, before ++ key ++ after = before ++ key' ++ after →
      key = key' := fun h => List.append_cancel_left (List.append_cancel_right h)
  cases kind with
  | emptyValue => exact ⟨hkey h, fun hne => absurd rfl hne⟩
  | unused | used =>
    obtain ⟨hwording, rfl⟩ := hcount h
    exact ⟨hkey hwording, fun _ => rfl⟩

/-- A message tells the kind of its finding and the key, whatever is in that, and the count unless
    the finding is about a value. -/
theorem message_eq_message_iff : f.message = g.message ↔
    f.kind = g.kind ∧ f.key = g.key ∧ (f.kind ≠ .emptyValue → f.count = g.count) := by
  constructor
  · intro h
    have hf := lastWord_mem_lastWords f
    have hg := lastWord_mem_lastWords g
    rw [message_eq_append, message_eq_append] at h
    obtain ⟨hstem, hlast⟩ := Text.append_space_inj (space_notMem_of_mem_lastWords hf)
      (space_notMem_of_mem_lastWords hg) h
    have hkind := kind_unique_of_mem_lastWords hf (hlast ▸ hg)
    exact ⟨hkind, eq_of_stem_eq hkind hstem⟩
  · obtain ⟨kind, key, count⟩ := f
    obtain ⟨kind', key', count'⟩ := g
    rintro ⟨rfl, rfl, hcount⟩
    cases kind with
    | emptyValue => rfl
    | unused | used =>
      obtain rfl : count = count' := hcount nofun
      rfl

/-- Findings with the same message are the same, as what is found about values has no counts. -/
theorem eq_of_message_eq (hf : f.kind = .emptyValue → f.count = 0)
    (hg : g.kind = .emptyValue → g.count = 0) (h : f.message = g.message) : f = g := by
  obtain ⟨hkind, hkey, hcount⟩ := message_eq_message_iff.1 h
  have hcount : f.count = g.count := by
    by_cases hvalue : f.kind = .emptyValue
    · rw [hf hvalue, hg (hkind ▸ hvalue)]
    · exact hcount hvalue
  obtain ⟨kind, key, count⟩ := f
  obtain ⟨kind', key', count'⟩ := g
  cases hkind
  cases hkey
  cases hcount
  rfl

/-- A key in which there are the wordings of two kinds, with counts. -/
def posing : Text := "a' is used 2 times. key 'a' is unused (found 1"

/-- The wordings in a key are not taken for those around it, however the key is put together. -/
theorem eq_of_message_eq_posing :
    let f : Finding := ⟨.unused, posing, 12⟩
    let g : Finding := ⟨.unused, "a' is used 2 times. key" ++ (" 'a' is unused (found 1" : Text), 12⟩
    let used : Finding := ⟨.used, posing, 2⟩
    f.message = g.message ∧ f = g ∧ f.message ≠ used.message := by
  intro f g used
  have hf : f.kind = .emptyValue → f.count = 0 := nofun
  have hg : g.kind = .emptyValue → g.count = 0 := nofun
  have hused : used.kind = .emptyValue → used.count = 0 := nofun
  have hmessage : f.message = g.message := by decide
  exact ⟨hmessage, eq_of_message_eq hf hg hmessage,
    fun h => absurd (eq_of_message_eq hf hused h) (by decide)⟩

end Finding

end KeyAudit
