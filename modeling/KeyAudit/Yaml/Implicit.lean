import KeyAudit.Text.Pattern

/-!
# Plain YAML texts that are no strings

In YAML a text without quotes may read as something else than a string: as a truth
value, a number, a date or nothing at all. These are the forms of YAML 1.1 that do.
-/

namespace KeyAudit.Yaml

open Text Text.Pattern

/-- A word in small letters, with a capital, or in capitals. -/
def anyCase (word : String) : Pattern :=
  any [exactly word, exactly word.capitalize, exactly word.toUpper]

/-- A sign that may be left out. -/
def sign : Pattern := optional (oneOf "-+")

/-- A digit or an underscore. -/
def digitOrMark : Pattern := oneOf "0123456789_"

/-- A digit, then digits and underscores. -/
def digits : Pattern := all [digit, many digitOrMark]

/-- An exponent with its sign, which may be left out as a whole. -/
def exponent : Pattern := optional (all [oneOf "eE", oneOf "-+", atLeastOne digit])

/-- The places after the first of a number in base sixty. -/
def sixtieths : Pattern := atLeastOne (all [exactly ":", optional (oneOf "012345"), digit])

/-- Truth values. -/
def truthValue : Pattern := any (["yes", "no", "true", "false", "on", "off"].map anyCase)

/-- Numbers with a point. -/
def number : Pattern := any [
  all [sign, digits, exactly ".", many digitOrMark, exponent],
  all [exactly ".", digit, many digitOrMark, exponent],
  all [sign, digits, sixtieths, exactly ".", many digitOrMark],
  all [sign, exactly ".", any [exactly "inf", exactly "Inf", exactly "INF"]],
  all [exactly ".", any [exactly "nan", exactly "NaN", exactly "NAN"]]]

/-- Integers. -/
def integer : Pattern := any [
  all [sign, exactly "0b", atLeastOne (oneOf "01_")],
  all [sign, exactly "0", atLeastOne (oneOf "01234567_")],
  all [sign, exactly "0"],
  all [sign, oneOf "123456789", many digitOrMark],
  all [sign, exactly "0x", atLeastOne (oneOf "0123456789abcdefABCDEF_")],
  all [sign, oneOf "123456789", many digitOrMark, sixtieths]]

/-- Nothing at all. -/
def nothing : Pattern := any [done, exactly "~", anyCase "null"]

/-- One or two digits. -/
def oneOrTwo : Pattern := all [digit, optional digit]

/-- Two digits. -/
def two : Pattern := all [digit, digit]

/-- A date, or a date with a time. -/
def timestamp : Pattern := any [
  all [two, two, exactly "-", two, exactly "-", two],
  all [two, two, exactly "-", oneOrTwo, exactly "-", oneOrTwo,
    any [oneOf "Tt", atLeastOne (oneOf " \t")], oneOrTwo, exactly ":", two, exactly ":", two,
    optional (all [exactly ".", many digit]),
    optional (all [many (oneOf " \t"),
      any [exactly "Z", all [oneOf "-+", oneOrTwo, optional (all [exactly ":", two])]]])]]

/-- The keys with a meaning of their own. -/
def specialKey : Pattern := any [exactly "=", exactly "<<"]

/-- All forms that are no strings. -/
def implicitForms : Pattern :=
  any [truthValue, number, integer, nothing, timestamp, specialKey]

/-- Whether a text reads as something else than a string. -/
def readsAsOther (s : Text) : Bool :=
  implicitForms.accepts s

end KeyAudit.Yaml
