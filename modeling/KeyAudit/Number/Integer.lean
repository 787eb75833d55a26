import KeyAudit.Text.Blank
import KeyAudit.Text.Tables.Digits

/-!
# Reading integers

Integers are written as digits with an optional sign in front; single
underscores may stand between digits. A number of more than `digitLimit` digits
is not read. Nor would an interpreter write it, but that is left out where numbers are
written (see `Record.numbers`).

* `integer?` reads the digits of every script, and blank space around the number;
* `digitRun?` and `sign` are the parts of other notations.
-/

namespace KeyAudit.Number

/-- The number of digits up to which integers are read and written. -/
def digitLimit : Nat := 4300

/-- Whether a code point counts as blank space around a number. Unlike elsewhere the
    information separators do not. -/
def isSpace (c : CodePoint) : Bool :=
  Text.isBlank c && !(0x1C ≤ c.toNat && c.toNat ≤ 0x1F)

/-- The value of one of the ten ASCII digits. -/
def asciiDigit? (c : CodePoint) : Option Nat :=
  if c.isBetween '0' '9' then some (c.toNat - '0'.toNat) else none

/-- The value of a decimal digit of any script. -/
def digit? (c : CodePoint) : Option Nat :=
  (Text.Tables.zeros.find? fun z => z ≤ c.toNat && c.toNat ≤ z + 9).map (c.toNat - ·)

/-- The values of one or more digits, between any two of which an underscore may
    stand. -/
def digitRun? (value? : CodePoint → Option Nat) : Text → Option (List Nat)
  | [] => none
  | [c] => (value? c).map ([·])
  | c :: .char '_' :: rest => do return (← value? c) :: (← digitRun? value? rest)
  | c :: rest => do return (← value? c) :: (← digitRun? value? rest)

/-- The number with the given digits, the first of which counts most. -/
def ofDigits (digits : List Nat) : Nat :=
  digits.foldl (fun n d => 10 * n + d) 0

/-- Takes an optional sign off a text; true for a minus. -/
def sign : Text → Bool × Text
  | .char '-' :: rest => (true, rest)
  | .char '+' :: rest => (false, rest)
  | s => (false, s)

/-- A natural number with its sign. -/
def withSign (negative : Bool) (n : Nat) : Int :=
  if negative then -n else n

@[simp]
theorem natAbs_withSign (negative : Bool) (n : Nat) : (withSign negative n).natAbs = n := by
  cases negative
  · exact Int.natAbs_natCast n
  · exact (Int.natAbs_neg n).trans (Int.natAbs_natCast n)

/-- The integer that a text is, with blank space around it. -/
def integer? (s : Text) : Option Int :=
  let (negative, rest) := sign (Text.trimBy isSpace s)
  match digitRun? digit? rest with
  | some digits =>
    if digits.length ≤ digitLimit then some (withSign negative (ofDigits digits)) else none
  | none => none

end KeyAudit.Number
