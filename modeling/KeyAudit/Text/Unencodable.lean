import KeyAudit.Text.Quoted

/-!
# Texts that cannot be encoded

A half of a surrogate pair that stands alone has no octets, so a text that holds one
cannot be written to a file or to the console.

* `encode` gives the string that a text is, or the first halves that keep it from
  being one.
-/

namespace KeyAudit.Text

/-- The halves that keep a text from being encoded: the first of them, its
    position, and how many come in a row from there on. -/
structure Unencodable where
  first : Surrogate
  position : Nat
  count : Nat
deriving Repr, DecidableEq

/-- The wording for a text that cannot be encoded. -/
def Unencodable.message (u : Unencodable) : Text :=
  "'utf-8' codec can't encode character" ++
    (if u.count = 1 then
      " " ++ quoted [.half u.first] ++ " in position " ++ toString u.position
    else
      "s in position " ++ toString u.position ++ "-" ++ toString (u.position + u.count - 1)) ++
    ": surrogates not allowed"

/-- The first of the halves that `refused` tells, in the rest of a text that starts
    at a position. -/
def unencodableFrom? (refused : Surrogate → Bool) (position : Nat) : Text → Option Unencodable
  | [] => none
  | .char _ :: rest => unencodableFrom? refused (position + 1) rest
  | .half s :: rest =>
    if refused s then some ⟨s, position, (rest.takeWhile CodePoint.isHalf).length + 1⟩
    else unencodableFrom? refused (position + 1) rest

/-- Nothing keeps a text from being encoded whose halves are all let through. -/
theorem unencodableFrom?_eq_none_iff {refused : Surrogate → Bool} {position : Nat} {s : Text} :
    unencodableFrom? refused position s = none ↔
      ∀ half, CodePoint.half half ∈ s → refused half = false := by
  induction s generalizing position with
  | nil => simp [unencodableFrom?]
  | cons c rest ih =>
    cases c with
    | char c => simp [unencodableFrom?, ih]
    | half s => by_cases hs : refused s = true <;> simp [unencodableFrom?, ih, hs]

/-- What keeps a text from being encoded, if anything does. -/
def unencodable? (s : Text) : Option Unencodable :=
  unencodableFrom? (fun _ => true) 0 s

/-- The characters of a text; a half that stands alone is left out. -/
def characters (s : Text) : List Char :=
  s.filterMap fun
    | .char c => some c
    | .half _ => none

/-- The string that a text is, or what keeps it from being one. -/
def encode (s : Text) : Except Unencodable String :=
  match unencodable? s with
  | some part => .error part
  | none => .ok (String.ofList (characters s))

/-- A text is encoded unless it holds a half. -/
theorem encode_eq_ok_iff {s : Text} : (∃ t, encode s = .ok t) ↔ holdsHalf s = false := by
  have hhalf : unencodable? s = none ↔ holdsHalf s = false := by
    rw [unencodable?, unencodableFrom?_eq_none_iff, holdsHalf_eq_false_iff]
    constructor
    · intro h c hc
      cases c with
      | char c => rfl
      | half half => exact absurd (h half hc) (by decide)
    · exact fun h half hhalf => absurd (h _ hhalf) (by simp [CodePoint.isHalf])
  rw [encode, ← hhalf]
  cases unencodable? s with
  | none => simp
  | some part => simp

theorem encode_ofString (t : String) : encode (ofString t) = .ok t := by
  have hnone : unencodable? (ofString t) = none := by
    refine unencodableFrom?_eq_none_iff.2 fun half hh => ?_
    obtain ⟨c, -, hc⟩ := List.mem_map.1 hh
    cases hc
  have hcharacters : characters (ofString t) = t.toList := by
    rw [characters, ofString, ofChars, List.filterMap_map]
    exact List.filterMap_some
  rw [encode, hnone, hcharacters, String.ofList_toList]

/-- A text without halves is a string. -/
theorem exists_ofString {s : Text} (h : holdsHalf s = false) : ∃ t : String, ofString t = s := by
  suffices ∃ cs, ofChars cs = s by
    obtain ⟨cs, rfl⟩ := this
    exact ⟨String.ofList cs, by rw [ofString, String.toList_ofList]⟩
  induction s with
  | nil => exact ⟨[], rfl⟩
  | cons c s ih =>
    obtain ⟨hc, hs⟩ := Bool.or_eq_false_iff.1 h
    obtain ⟨cs, rfl⟩ := ih hs
    cases c with
    | char c => exact ⟨c :: cs, rfl⟩
    | half half => cases hc

end KeyAudit.Text
