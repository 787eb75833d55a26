import KeyAudit.Text.Unencodable
import KeyAudit.Text.Utf8

/-!
# Names as octets

An operating system knows the names of files as sequences of octets, and a program
knows them as texts. The octets of a text are those of its characters in UTF-8. An
octet that belongs to no character is spelled by a half of a surrogate pair, one from
`DC80` to `DCFF`; a text with any other half cannot be a name.

Octets that are spelled one by one may make a character together, so that two texts
may be the same name. `canonical` gives the spelling in which a name is listed, with
as many characters as there are in its octets.
-/

namespace KeyAudit.FileName

open Text

/-- The octet that a half spells, if it spells one. -/
def octet? (s : Surrogate) : Option UInt8 :=
  if 0xDC80 ≤ s.unit ∧ s.unit ≤ 0xDCFF then some (s.unit - 0xDC00).toUInt8 else none

/-- The half that spells an octet. -/
def single (b : UInt8) : CodePoint :=
  .half ⟨0xDC00 + b.toNat, by have := b.toNat_lt; omega⟩

/-- The octets of a code point in a name. -/
def octetsOf : CodePoint → List UInt8
  | .char c => String.utf8EncodeChar c
  | .half s => (octet? s).toList

/-- The octets of a name. -/
def octets (s : Text) : List UInt8 := s.flatMap octetsOf

/-- The number of octets of a name. -/
def size (s : Text) : Nat := (octets s).length

/-- What keeps a text from being a name, if anything does. -/
def unencodable? (s : Text) : Option Unencodable :=
  unencodableFrom? (fun half => (octet? half).isNone) 0 s

/-- A character of which some octets are still due, with the octets that have been
    read, last first. -/
structure Begun where
  pending : Utf8.Pending
  read : List UInt8

/-- What is settled by the first octet of something new, and what it begins. -/
def start (b : UInt8) : Text × Option Begun :=
  match Utf8.begin? b with
  | none => ([single b], none)
  | some (.inl c) => ([.char c], none)
  | some (.inr pending) => ([], some ⟨pending, [b]⟩)

/-- What is settled by the next octet, and what has begun then. -/
def step (begun : Option Begun) (b : UInt8) : Text × Option Begun :=
  match begun with
  | none => start b
  | some ⟨pending, read⟩ =>
    match pending.next? b with
    | some (.inl c) => ([.char c], none)
    | some (.inr pending) => ([], some ⟨pending, b :: read⟩)
    | none =>
      let (settled, begun) := start b
      (read.reverse.map single ++ settled, begun)

/-- The spelling of octets that come after some that have begun a character. -/
def ofOctetsAfter (begun : Option Begun) : List UInt8 → Text
  | [] =>
    match begun with
    | none => []
    | some ⟨_, read⟩ => read.reverse.map single
  | b :: rest =>
    let (settled, begun) := step begun b
    settled ++ ofOctetsAfter begun rest

/-- The spelling of octets, in which an octet is spelled as a half only if it belongs
    to no character. -/
def ofOctets (octets : List UInt8) : Text := ofOctetsAfter none octets

/-- The spelling in which a name is listed. Characters are listed as they are. -/
def canonical (s : Text) : Text :=
  if holdsHalf s then ofOctets (octets s) else s

end KeyAudit.FileName
