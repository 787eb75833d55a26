import KeyAudit.Text.Surrogate

/-!
# Texts

A text is a sequence of code points. Almost always these are characters, and then the
text is a string. But texts come from notations in which the half of a surrogate pair
may stand alone, and such a half is kept as it is.

Texts are ordered by their code points as numbers, which tell all code points apart
(`CodePoint.toNat_inj`).
-/

namespace KeyAudit

/-- What a text is made of. -/
inductive CodePoint
  | char (c : Char)
  /-- The half of a surrogate pair that stands alone. -/
  | half (s : Surrogate)
deriving Repr, DecidableEq

namespace CodePoint

instance : Inhabited CodePoint := ⟨.char default⟩

instance : Coe Char CodePoint := ⟨char⟩

/-- A code point as a number. -/
def toNat : CodePoint → Nat
  | char c => c.toNat
  | half s => s.unit

/-- Whether a code point is the half of a pair. -/
def isHalf : CodePoint → Bool
  | char _ => false
  | half _ => true

/-- Whether a code point lies between two characters. -/
def isBetween (first last : Char) (c : CodePoint) : Bool :=
  first.toNat ≤ c.toNat && c.toNat ≤ last.toNat

instance : LT CodePoint := ⟨fun c d => c.toNat < d.toNat⟩

instance : DecidableLT CodePoint := fun c d => Nat.decLt c.toNat d.toNat

/-- No character is a half. -/
theorem toNat_char_ne_unit (c : Char) (s : Surrogate) : c.toNat ≠ s.unit := by
  have hc := c.valid
  have hs := s.isHalf
  unfold UInt32.isValidChar Nat.isValidChar at hc
  unfold Char.toNat
  omega

theorem toNat_inj {c d : CodePoint} (h : c.toNat = d.toNat) : c = d := by
  cases c with
  | char c =>
    cases d with
    | char d => rw [Char.toNat_inj.1 h]
    | half s => exact absurd h (toNat_char_ne_unit c s)
  | half s =>
    cases d with
    | char d => exact absurd h.symm (toNat_char_ne_unit d s)
    | half t =>
      cases s
      cases t
      cases h
      rfl

end CodePoint

/-- A sequence of code points. -/
abbrev Text := List CodePoint

namespace Text

/-- Characters as a text. -/
def ofChars (cs : List Char) : Text := cs.map CodePoint.char

/-- A string as a text. -/
def ofString (s : String) : Text := ofChars s.toList

instance : Coe (List Char) Text := ⟨ofChars⟩

instance : Coe String Text := ⟨ofString⟩

/-- A number is written with its digits. -/
theorem ofString_toString_ofNat (n : Nat) :
    ofString (toString (Int.ofNat n)) = ofChars (Nat.toDigits 10 n) :=
  congrArg ofChars Nat.toList_repr

theorem ofString_toString_negSucc (n : Nat) :
    ofString (toString (Int.negSucc n)) = .char '-' :: ofChars (Nat.toDigits 10 (n + 1)) := by
  rw [show toString (Int.negSucc n) = "-" ++ Nat.repr (n + 1) from rfl, ofString,
    String.toList_append, Nat.toList_repr]
  rfl

/-- The characters of a text, if it has nothing else. -/
def chars? : Text → Option (List Char)
  | [] => some []
  | .char c :: rest => (chars? rest).map (c :: ·)
  | .half _ :: _ => none

/-- The string that a text is, if it is one. -/
def string? (s : Text) : Option String := (chars? s).map String.ofList

/-- Whether a text holds a half of a pair. -/
def holdsHalf (s : Text) : Bool := s.any CodePoint.isHalf

theorem holdsHalf_eq_false_iff {s : Text} :
    holdsHalf s = false ↔ ∀ c ∈ s, c.isHalf = false := by
  simp [holdsHalf]

@[simp] theorem holdsHalf_ofChars (cs : List Char) : holdsHalf (ofChars cs) = false :=
  holdsHalf_eq_false_iff.2 fun c hc => by
    obtain ⟨c, -, rfl⟩ := List.mem_map.1 hc
    rfl

@[simp] theorem holdsHalf_ofString (s : String) : holdsHalf (ofString s) = false :=
  holdsHalf_ofChars _

@[simp] theorem holdsHalf_nil : holdsHalf [] = false := rfl

@[simp] theorem holdsHalf_cons (c : CodePoint) (s : Text) :
    holdsHalf (c :: s) = (c.isHalf || holdsHalf s) := rfl

@[simp] theorem holdsHalf_append (s t : Text) :
    holdsHalf (s ++ t) = (holdsHalf s || holdsHalf t) := List.any_append

@[simp] theorem holdsHalf_reverse (s : Text) : holdsHalf s.reverse = holdsHalf s := List.any_reverse

@[simp] theorem holdsHalf_replicate (n : Nat) (c : Char) :
    holdsHalf (List.replicate n (.char c)) = false :=
  holdsHalf_eq_false_iff.2 fun d hd => by
    rw [List.eq_of_mem_replicate hd]
    rfl

/-- The texts one after the other, with a separator between any two of them. -/
def join (separator : Text) (texts : List Text) : Text := separator.intercalate texts

theorem join_cons_cons (separator s t : Text) (rest : List Text) :
    join separator (s :: t :: rest) = s ++ (separator ++ join separator (t :: rest)) := by
  simp [join, List.intercalate]

/-- What is joined are the separators and the texts. -/
theorem mem_join {c : CodePoint} {separator : Text} {texts : List Text}
    (h : c ∈ join separator texts) : c ∈ separator ∨ ∃ t ∈ texts, c ∈ t := by
  induction texts with
  | nil => simp [join, List.intercalate] at h
  | cons s rest ih =>
    cases rest with
    | nil => exact .inr ⟨s, List.mem_cons_self, by simpa [join, List.intercalate] using h⟩
    | cons t rest =>
      rw [join_cons_cons, List.mem_append, List.mem_append] at h
      rcases h with h | h | h
      · exact .inr ⟨s, List.mem_cons_self, h⟩
      · exact .inl h
      · exact (ih h).imp_right fun ⟨u, hu, hc⟩ => ⟨u, List.mem_cons_of_mem _ hu, hc⟩

/-- A text that is joined with others is a piece of the whole. -/
theorem infix_join_of_mem {separator t : Text} {texts : List Text} (ht : t ∈ texts) :
    t <:+: join separator texts := by
  induction texts with
  | nil => exact absurd ht List.not_mem_nil
  | cons s rest ih =>
    cases rest with
    | nil =>
      rw [List.mem_singleton.1 ht]
      simp [join, List.intercalate]
    | cons u rest =>
      rw [join_cons_cons]
      rcases List.mem_cons.1 ht with rfl | ht
      · exact (List.prefix_append _ _).isInfix
      · exact (ih ht).trans (List.suffix_append_of_suffix (List.suffix_append _ _)).isInfix

theorem holdsHalf_join {separator : Text} (h : holdsHalf separator = false) (texts : List Text) :
    holdsHalf (join separator texts) = texts.any holdsHalf := by
  induction texts with
  | nil => rfl
  | cons s rest ih =>
    cases rest with
    | nil => simp [join, List.intercalate]
    | cons t rest =>
      rw [join_cons_cons, holdsHalf_append, holdsHalf_append, ih, h, Bool.false_or]
      rfl

theorem mem_join_of_mem {c : CodePoint} {separator t : Text} {texts : List Text} (ht : t ∈ texts)
    (hc : c ∈ t) : c ∈ join separator texts :=
  (infix_join_of_mem ht).subset hc

end Text

end KeyAudit
