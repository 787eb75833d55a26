/-!
# Numbers in binary floating point

The numbers of the 64 bit binary format, as exact values: a finite number is
`± mantissa · 2 ^ exponent`. The mantissa is below `2 ^ 53` and the exponent at
least `-1074`; the mantissa is at least `2 ^ 52` unless the exponent is least,
so every number has one form.

* `ofDecimal` rounds a decimal to the nearest number, ties to even mantissas;
* `shortest` gives the fewest decimal digits that are rounded back to a number,
  and of those the nearest to it. It tries the decimals with one digit, with two
  digits and so on. If any decimal with so many digits is rounded to the number,
  then one of its two neighbours among them is.
-/

namespace KeyAudit

/-- A number of the 64 bit binary format. -/
inductive Binary64
  | nan
  | infinite (negative : Bool)
  | finite (negative : Bool) (mantissa : Nat) (exponent : Int)
deriving Repr, DecidableEq

namespace Binary64

/-- The exponent of the smallest numbers. -/
def leastExponent : Int := -1074

/-- The exponent of the greatest numbers. -/
def greatestExponent : Int := 971

/-- The mantissas of numbers lie below `2 ^ 53`. -/
def mantissaLimit : Nat := 9007199254740992

/-- The least mantissa of a number whose exponent is not the least: `2 ^ 52`. -/
def leastFullMantissa : Nat := 4503599627370496

/-- A power; one if the exponent is negative. -/
def power (base : Nat) (exponent : Int) : Nat :=
  Nat.pow base exponent.toNat

/-- The quotient rounded to the nearest natural number, ties to the even one. -/
def roundDiv (num den : Nat) : Nat :=
  let q := num / den
  let r := num % den
  if 2 * r < den ∨ (2 * r = den ∧ q % 2 = 0) then q else q + 1

/-- A quotient divided by `2 ^ exponent`, as a quotient. -/
def unscale (num den : Nat) (exponent : Int) : Nat × Nat :=
  (num * power 2 (-exponent), den * power 2 exponent)

/-- The number nearest to the positive quotient `num / den`. -/
def ofRatio (negative : Bool) (num den : Nat) : Binary64 :=
  let estimate := max leastExponent ((num.log2 : Int) - den.log2 - 53)
  let (n, d) := unscale num den estimate
  let exponent := if n / d < mantissaLimit then estimate else estimate + 1
  let (n, d) := unscale num den exponent
  let mantissa := roundDiv n d
  let (mantissa, exponent) :=
    if mantissa = mantissaLimit then (leastFullMantissa, exponent + 1) else (mantissa, exponent)
  if exponent > greatestExponent then infinite negative else finite negative mantissa exponent

/-- The number nearest to `± digits · 10 ^ exponent`. -/
def ofDecimal (negative : Bool) (digits : Nat) (exponent : Int) : Binary64 :=
  let magnitude := exponent + (Nat.toDigits 10 digits).length
  if digits = 0 ∨ magnitude < -330 then finite negative 0 leastExponent
  else if magnitude > 310 then infinite negative
  else ofRatio negative (digits * power 10 exponent) (power 10 (-exponent))

/-- The integer that a number equals, if it is one. -/
def toInt? : Binary64 → Option Int
  | finite negative mantissa exponent =>
    let divisor := power 2 (-exponent)
    if mantissa % divisor = 0 then
      let n : Nat := mantissa / divisor * power 2 exponent
      some (if negative then -n else n)
    else none
  | _ => none

/-- Whether a number is neither infinite nor undefined. -/
def isFinite : Binary64 → Bool
  | finite .. => true
  | _ => false

/-- The decimals that are rounded to `mantissa · 2 ^ exponent` lie between two
    bounds, which belong to them if the mantissa is even. All three are given in
    units of a quarter of the last binary place. -/
structure Interval where
  low : Nat
  value : Nat
  high : Nat
  closed : Bool

/-- The decimals that are rounded to a number. Below a power of two the numbers
    are twice as dense. -/
def interval (mantissa : Nat) (exponent : Int) : Interval where
  low := 4 * mantissa - if mantissa = leastFullMantissa ∧ exponent > leastExponent then 1 else 2
  value := 4 * mantissa
  high := 4 * mantissa + 2
  closed := mantissa % 2 == 0

/-- The multiple of `10 ^ place` in an interval in units of `2 ^ unit` that is
    nearest to its value, given by its factor, if one of the two multiples next
    to the value lies in the interval. -/
def Interval.multiple? (i : Interval) (unit place : Int) : Option Nat :=
  let left := power 10 place * power 2 (-unit)
  let right := power 2 unit * power 10 (-place)
  let inside := fun a : Nat =>
    if i.closed then i.low * right ≤ a * left && a * left ≤ i.high * right
    else i.low * right < a * left && a * left < i.high * right
  let down := i.value * right / left
  let below := i.value * right - down * left
  let above := (down + 1) * left - i.value * right
  match inside down, inside (down + 1) with
  | true, true =>
    some (if below < above ∨ (below = above ∧ down % 2 = 0) then down else down + 1)
  | true, false => some down
  | false, true => some (down + 1)
  | false, false => none

/-- Removes zeros at the end of a decimal `digits · 10 ^ place`, at most `fuel`
    of them. -/
def stripZeros : (fuel : Nat) → Nat → Int → Nat × Int
  | 0, digits, place => (digits, place)
  | fuel + 1, digits, place =>
    if digits ≠ 0 ∧ digits % 10 = 0 then stripZeros fuel (digits / 10) (place + 1)
    else (digits, place)

/-- The least `p` with `mantissa · 2 ^ exponent < 10 ^ p`. -/
def decimalSize (mantissa : Nat) (exponent : Int) : Int :=
  let guess := ((mantissa.log2 : Int) + exponent) * 30103 / 100000
  let fits := fun p : Int =>
    mantissa * power 2 exponent * power 10 (-p) < power 10 p * power 2 (-exponent)
  if fits guess then guess else if fits (guess + 1) then guess + 1 else guess + 2

/-- The fewest decimal digits that are rounded to the positive number
    `mantissa · 2 ^ exponent`, as `digits · 10 ^ place`. -/
def shortest (mantissa : Nat) (exponent : Int) : Nat × Int :=
  let i := interval mantissa exponent
  let size := decimalSize mantissa exponent
  let candidates := (List.range 17).filterMap fun count =>
    let place := size - (count + 1 : Nat)
    (i.multiple? (exponent - 2) place).map fun digits => (digits, place)
  match candidates with
  | (digits, place) :: _ => stripZeros 2 digits place
  | [] => (0, 0)

end Binary64

end KeyAudit
