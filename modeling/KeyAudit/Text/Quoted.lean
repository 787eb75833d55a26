import KeyAudit.Text.Case
import KeyAudit.Text.Tables.Printable

/-!
# Quoted texts

A text in quotes, as messages show it. Single quotes are used unless the text
holds a single quote and no double quote. The quote in use and the backslash
get a backslash in front; tab, line feed and carriage return have short escapes,
and whatever else has no printed form is written as its code point, in two, four
or eight hexadecimal digits.
-/

namespace KeyAudit.Text

/-- Whether a code point has a printed form. -/
def isPrintable (c : CodePoint) : Bool :=
  !c.isHalf && !inRanges Tables.unprintable c.toNat

/-- The last `width` hexadecimal digits of a number, each written by `digit`. -/
def hexDigitsBy (digit : Nat → Char) : (width : Nat) → Nat → Text
  | 0, _ => []
  | width + 1, n => hexDigitsBy digit width (n / 16) ++ [.char (digit (n % 16))]

/-- The last `width` hexadecimal digits of a number, in small letters. -/
def hexDigits : (width : Nat) → Nat → Text := hexDigitsBy Nat.digitChar

/-- The last `width` hexadecimal digits of a number, in capitals. -/
def capitalHexDigits : (width : Nat) → Nat → Text := hexDigitsBy fun d => (Nat.digitChar d).toUpper

/-- A code point of a text quoted with `quote`. -/
def quotedChar (quote c : CodePoint) : Text :=
  if c = quote ∨ c = '\\' then ['\\', c]
  else if c = '\t' then ['\\', 't']
  else if c = '\n' then ['\\', 'n']
  else if c = '\r' then ['\\', 'r']
  else if isPrintable c then [c]
  else if c.toNat ≤ 0xFF then "\\x" ++ hexDigits 2 c.toNat
  else if c.toNat ≤ 0xFFFF then "\\u" ++ hexDigits 4 c.toNat
  else "\\U" ++ hexDigits 8 c.toNat

/-- A text in quotes. -/
def quoted (s : Text) : Text :=
  let quote : CodePoint := if s.contains '\'' && !s.contains '"' then '"' else '\''
  [quote] ++ s.flatMap (quotedChar quote) ++ [quote]

end KeyAudit.Text
