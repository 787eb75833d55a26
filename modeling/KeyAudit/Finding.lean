import KeyAudit.Text.Basic

/-!
# Findings

What an audit reports about a key: that its value is empty, that it is unused,
or that it is used, with the number of lines it was found on.
-/

namespace KeyAudit

/-- What was found about a key. -/
inductive FindingKind
  | emptyValue
  | unused
  | used
deriving Repr, DecidableEq

namespace FindingKind

/-- All kinds of findings. -/
def all : List FindingKind := [emptyValue, unused, used]

/-- The name of a kind. -/
def name : FindingKind → Text
  | emptyValue => "empty_value"
  | unused => "unused"
  | used => "used"

/-- The kind of a name. -/
def ofName? (s : Text) : Option FindingKind :=
  all.find? fun kind => kind.name = s

end FindingKind

/-- Something found about a key. The count of a finding about a value is zero. -/
structure Finding where
  kind : FindingKind
  key : Text
  count : Int := 0
deriving Repr, DecidableEq

/-- The word after a number of times. -/
def times (count : Int) : Text :=
  if count > 1 then "times" else "time"

/-- The text of a finding. -/
def Finding.message (f : Finding) : Text :=
  match f.kind with
  | .emptyValue => "warning, key '" ++ f.key ++ "' has an empty value."
  | .unused =>
    "key '" ++ f.key ++ "' is unused (found " ++ toString f.count ++ " " ++ times f.count ++ ")."
  | .used =>
    "key '" ++ f.key ++ "' is used " ++ toString f.count ++ " " ++ times f.count ++ "."

end KeyAudit
