/-!
# Surrogates

Characters beyond the first plane may be written as two code units, the halves of a
surrogate pair. The units from `D800` on are first halves, those from `DC00` up to
`DFFF` second halves. A half that stands alone is no character.
-/

namespace KeyAudit

/-- A half of a surrogate pair, given by its code unit. -/
structure Surrogate where
  unit : Nat
  isHalf : 0xD800 ≤ unit ∧ unit ≤ 0xDFFF
deriving Repr, DecidableEq

namespace Surrogate

/-- The half with a code unit, if that is one of a half. -/
def ofUnit? (unit : Nat) : Option Surrogate :=
  if h : 0xD800 ≤ unit ∧ unit ≤ 0xDFFF then some ⟨unit, h⟩ else none

/-- Whether a half comes first in a pair. -/
def isFirst (s : Surrogate) : Bool := s.unit < 0xDC00

/-- The character of a pair. -/
def join (first second : Surrogate) : Char :=
  Char.ofNat (0x10000 + (first.unit - 0xD800) * 0x400 + (second.unit - 0xDC00))

end Surrogate

end KeyAudit
