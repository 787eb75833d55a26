import KeyAudit.Number.Integer
import KeyAudit.Text.Split

/-!
# Numerals

Integers as people write them in texts. A numeral in *standard form* is zero or a
row of digits that does not begin with zero, with an optional minus in front. Any
other text is first brought to standard form, as far as that can be done:

* blank space around it and a plus in front of it are dropped;
* zeros in front are dropped, with underscores after the first of them; a minus
  may follow them;
* a fraction of zeros is dropped;
* underscores that stand alone between other characters are dropped.

`ofNumeral` reads both kinds. That a numeral is too long is only noticed if it is
in standard form from the start; any other one is just not read then.
-/

namespace KeyAudit.Number

/-- Why a text is not read as a numeral. -/
inductive NumeralError
  | unreadable
  | tooLong
deriving Repr, DecidableEq

/-- Whether a character is one of the ten ASCII digits. -/
def isAsciiDigit (c : CodePoint) : Bool := (asciiDigit? c).isSome

/-- Reads the digits of a numeral in standard form. A row of too many digits is
    too long whatever follows it. -/
def ofStandardDigits (s : Text) : Except NumeralError Nat :=
  match s with
  | [.char '0'] => .ok 0
  | .char '0' :: _ => .error .unreadable
  | _ =>
    let digits := (s.takeWhile isAsciiDigit).filterMap asciiDigit?
    if digits.length > digitLimit then .error .tooLong
    else if digits.isEmpty || digits.length < s.length then .error .unreadable
    else .ok (ofDigits digits)

/-- Reads a numeral in standard form. -/
def ofStandardNumeral : Text → Except NumeralError Int
  | .char '-' :: rest => (ofStandardDigits rest).map (withSign true)
  | s => (ofStandardDigits s).map (withSign false)

/-- What is left of a text after a zero or an underscore among the zeros in front:
    that character goes as well, unless the number ends with it. -/
def dropZerosAfter (last : CodePoint) : Text → Option Text
  | [] => some [last]
  | c :: rest =>
    if c = '0' ∨ c = '_' then dropZerosAfter c rest
    else if c = '.' then some (last :: c :: rest)
    else if c = '-' ∨ isAsciiDigit c = true then some (c :: rest)
    else none

/-- A text without the zeros in front. It has to begin with a digit or a minus,
    and what follows the zeros has to be a number as far as can be seen. -/
def dropZeros : Text → Option Text
  | [] => none
  | c :: rest =>
    if c = '0' then dropZerosAfter c rest
    else if c = '-' ∨ isAsciiDigit c = true then some (c :: rest)
    else none

/-- A text without its fraction, if that holds zeros only. -/
def dropZeroFraction (s : Text) : Text :=
  let fraction := (Text.dropUntil '.' s).drop 1
  if !fraction.isEmpty && fraction.all (fun c => c = '0') then Text.takeUntil '.' s else s

/-- A text without its underscores, if each of them stands alone between two other
    characters. -/
def dropUnderscores (s : Text) : Text :=
  let words := Text.splitOn '_' s
  if words.contains [] then s else words.flatten

/-- Brings a numeral to standard form, as far as that can be done. -/
def standardize? (s : Text) : Option Text :=
  let unsigned? :=
    match Text.trimBy isSpace s with
    | .char '+' :: .char '-' :: _ => none
    | .char '+' :: rest => dropZeros rest
    | .char '-' :: rest => (dropZeros rest).map ('-' :: ·)
    | rest => dropZeros rest
  unsigned?.map fun s => dropUnderscores (dropZeroFraction s)

/-- Reads a numeral. -/
def ofNumeral (s : Text) : Except NumeralError Int :=
  match ofStandardNumeral s with
  | .error .unreadable =>
    match (standardize? s).map ofStandardNumeral with
    | some (.ok n) => .ok n
    | _ => .error .unreadable
  | result => result

end KeyAudit.Number
