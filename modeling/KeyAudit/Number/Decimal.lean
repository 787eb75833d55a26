import KeyAudit.Number.Binary64
import KeyAudit.Text.Basic

/-!
# Decimal texts of numbers

How a number is written with the fewest digits that read back: in positional
notation for moderate exponents, with an exponent otherwise. What the notations
differ in is a `NumberStyle`.
-/

namespace KeyAudit

/-- The spelling of floating point numbers in a notation. -/
structure NumberStyle where
  /-- The text of a number that is none. -/
  nan : Text
  /-- The text of the positive infinity. -/
  infinity : Text
  /-- What follows the first digit of a number with an exponent if it is the
      only digit. -/
  loneDigit : Text

namespace Binary64

/-- The exponent with a sign and at least two digits. -/
def exponentText (e : Int) : Text :=
  let digits : Text := toString e.natAbs
  (if e < 0 then "e-" else "e+") ++ (if digits.length < 2 then "0" ++ digits else digits)

/-- The decimal `digits · 10 ^ place`. Numbers from `10 ^ -4` up to `10 ^ 16` are
    written in positional notation, whole ones with a zero after the point. -/
def decimalText (style : NumberStyle) (digits : Nat) (place : Int) : Text :=
  let text : Text := toString digits
  let point := place + text.length
  if -4 < point ∧ point ≤ 16 then
    if place ≥ 0 then text ++ (List.replicate place.toNat '0' : Text) ++ ".0"
    else if point > 0 then
      text.take point.toNat ++ "." ++ text.drop point.toNat
    else "0." ++ (List.replicate (-point).toNat '0' : Text) ++ text
  else
    let mantissa : Text :=
      match text with
      | [d] => d :: style.loneDigit
      | d :: rest => d :: '.' :: rest
      | [] => []
    mantissa ++ exponentText (point - 1)

/-- The text of a number with the fewest digits that read back. -/
def toText (style : NumberStyle) : Binary64 → Text
  | nan => style.nan
  | infinite negative => (if negative then "-" else "") ++ style.infinity
  | finite negative mantissa exponent =>
    let magnitude : Text :=
      if mantissa = 0 then "0.0"
      else
        let (digits, place) := shortest mantissa exponent
        decimalText style digits place
    (if negative then "-" else "") ++ magnitude

end Binary64

end KeyAudit
