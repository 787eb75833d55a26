import KeyAudit.Json.Literal

/-!
# Refused values

Data comes as values under names, which are read as what they are meant to be. A
value that cannot be read is refused, for one of several issues. Reading goes on
then, so that all refused values are known at the end (`Validation`).

* `report` words all refusals, each with its place, its issue and the value.
-/

namespace KeyAudit

/-- Why a value is refused. -/
inductive Issue
  | missing
  | unknown
  | notPath
  | notText
  | notString
  | notList
  | notObject
  | notInteger
  | fractional
  | notFinite
  | unreadableInteger
  | tooLarge
  | negative
  | unclearSwitch
  | notSwitch
deriving Repr, DecidableEq

namespace Issue

/-- The wording of an issue. -/
def message : Issue → Text
  | missing => "Field required"
  | unknown => "Extra inputs are not permitted"
  | notPath => "Input is not a valid path for <class 'pathlib.Path'>"
  | notText =>
    "Input should be a valid string, unable to parse raw data as a unicode string"
  | notString => "Input should be a valid string"
  | notList => "Input should be a valid list"
  | notObject => "Input should be a valid dictionary"
  | notInteger => "Input should be a valid integer"
  | fractional => "Input should be a valid integer, got a number with a fractional part"
  | notFinite => "Input should be a finite number"
  | unreadableInteger =>
    "Input should be a valid integer, unable to parse string as an integer"
  | tooLarge => "Unable to parse input string as an integer, exceeded maximum size"
  | negative => "Input should be greater than or equal to 0"
  | unclearSwitch => "Input should be a valid boolean, unable to interpret input"
  | notSwitch => "Input should be a valid boolean"

/-- The name of an issue. -/
def name : Issue → Text
  | missing => "missing"
  | unknown => "extra_forbidden"
  | notPath => "path_type"
  | notText => "string_unicode"
  | notString => "string_type"
  | notList => "list_type"
  | notObject => "dict_type"
  | notInteger => "int_type"
  | fractional => "int_from_float"
  | notFinite => "finite_number"
  | unreadableInteger => "int_parsing"
  | tooLarge => "int_parsing_size"
  | negative => "greater_than_equal"
  | unclearSwitch => "bool_parsing"
  | notSwitch => "bool_type"

/-- Whether the issue is explained somewhere. -/
def isExplained : Issue → Bool
  | notPath => false
  | _ => true

end Issue

/-- A refused value. -/
structure Refusal where
  /-- The names on the way to the value. -/
  place : List Text
  issue : Issue
  value : Json

/-- The names on the way to a refused value, in one. -/
def Refusal.placeName (r : Refusal) : Text := Text.join "." r.place

/-- The wording of a refusal, with the place in front if it has a name. -/
def Refusal.message (r : Refusal) : Text :=
  if r.placeName = [] then r.issue.message else r.placeName ++ ": " ++ r.issue.message

/-- A value, or what is refused of the values it depends on. -/
inductive Validation (α : Type)
  | valid (value : α)
  | invalid (first : Refusal) (rest : List Refusal)

namespace Validation

variable {α β : Type}

/-- Applies a function that depends on some values to one that depends on others;
    what is refused of either is kept. -/
def ap : Validation (α → β) → Validation α → Validation β
  | valid f, valid a => valid (f a)
  | valid _, invalid r rs => invalid r rs
  | invalid r rs, valid _ => invalid r rs
  | invalid r rs, invalid s ss => invalid r (rs ++ s :: ss)

/-- What a value at a place is read as. -/
def ofValue (place : List Text) (value : Json) : Except Issue α → Validation α
  | .ok a => valid a
  | .error issue => invalid ⟨place, issue, value⟩ []

/-- Reads values one after the other. -/
def all : List (Validation α) → Validation (List α)
  | [] => valid []
  | v :: rest => (ap (valid List.cons) v).ap (all rest)

end Validation

namespace Refusal

/-- The greatest size in octets at which a value is shown in full. -/
def shownSize : Nat := 50

/-- The number of octets of a code point. A half of a surrogate pair has as many as a
    character next to it. -/
def octetCount : CodePoint → Nat
  | .char c => c.utf8Size
  | .half _ => 3

/-- The number of octets of a text. -/
def octetSize : Text → Nat
  | [] => 0
  | c :: rest => octetCount c + octetSize rest

/-- The start of a text that takes at most `size` octets. -/
def takeOctets (size : Nat) : Text → Text
  | [] => []
  | c :: rest => if octetCount c ≤ size then c :: takeOctets (size - octetCount c) rest else []

/-- A text, without its middle if it is large. -/
def shorten (s : Text) : Text :=
  if octetSize s ≤ shownSize then s
  else
    takeOctets (shownSize / 2) s ++ "..." ++
      (takeOctets (shownSize / 2 - 1) s.reverse).reverse

/-- The character that is shown in place of an octet of no character. -/
def replacement : Char := '\ufffd'

/-- A code point of a name; of a half every octet is replaced. -/
def shownPoint (c : CodePoint) : Text :=
  if c.isHalf then List.replicate (octetCount c) replacement else [c]

/-- A name on the way to a value. One that holds a point is marked. -/
def nameText (name : Text) : Text :=
  let shown := name.flatMap shownPoint
  if shown.contains '.' then "`" ++ shown ++ "`" else shown

/-- The lines about a refused value. Issues are explained under the address
    `manual`. -/
def lines (manual : Text) (r : Refusal) : List Text :=
  (if r.place.isEmpty then [] else [Text.join "." (r.place.map nameText)]) ++
  ["  " ++ r.issue.message ++ " [type=" ++ r.issue.name ++ ", input_value=" ++
    shorten r.value.literal ++ ", input_type=" ++ r.value.kindName ++ "]"] ++
  (if r.issue.isExplained then
    ["    For further information visit " ++ manual ++ r.issue.name] else [])

/-- The text about all values that are refused of a subject. -/
def report (subject manual : Text) (refusals : List Refusal) : Text :=
  let count := refusals.length
  let head := toString count ++ " validation error" ++ (if count = 1 then "" else "s") ++
    " for " ++ subject
  Text.join "\n" (head :: refusals.flatMap (lines manual))

end Refusal

end KeyAudit
