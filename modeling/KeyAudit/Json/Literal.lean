import KeyAudit.Json.Basic
import KeyAudit.Number.Decimal
import KeyAudit.Text.Quoted

/-!
# Values in messages

How a value is shown in a message or a log record: `None`, `True` and `False`,
numbers with the fewest digits that read back, strings in single quotes, and
items and members between brackets.
-/

namespace KeyAudit.Json

/-- The spelling of floating point numbers in messages. -/
def literalStyle : NumberStyle := ⟨"nan", "inf", ""⟩

mutual

/-- A value as it is shown within another one. -/
def literal : Json → Text
  | null => "None"
  | bool true => "True"
  | bool false => "False"
  | int n => toString n
  | float x => x.toText literalStyle
  | str s => Text.quoted s
  | arr items => "[" ++ literalItems items ++ "]"
  | obj members => "\x7b" ++ literalMembers members ++ "\x7d"

/-- Items separated by commas. -/
def literalItems : List Json → Text
  | [] => []
  | [item] => literal item
  | item :: rest => literal item ++ ", " ++ literalItems rest

/-- Members separated by commas. -/
def literalMembers : List (Text × Json) → Text
  | [] => []
  | [(name, value)] => Text.quoted name ++ ": " ++ literal value
  | (name, value) :: rest =>
    Text.quoted name ++ ": " ++ literal value ++ ", " ++ literalMembers rest

end

/-- The name of the kind of a value. -/
def kindName : Json → Text
  | null => "NoneType"
  | bool _ => "bool"
  | int _ => "int"
  | float _ => "float"
  | str _ => "str"
  | arr _ => "list"
  | obj _ => "dict"

/-- The text of a value that stands alone: a string is its own text. -/
def text : Json → Text
  | str s => s
  | value => literal value

end KeyAudit.Json
