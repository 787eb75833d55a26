import KeyAudit.Json.Basic
import KeyAudit.Number.Decimal
import KeyAudit.Text.Quoted

/-!
# Writing JSON

Values as JSON text, over several lines with a given indentation or on a single
line. Within strings only the double quote, the backslash and the control
characters of ASCII are escaped; all other characters stand for themselves.
Empty arrays and objects are written without anything between the brackets.
-/

namespace KeyAudit.Json

/-- The spelling of floating point numbers in JSON. -/
def numberStyle : NumberStyle := ⟨"NaN", "Infinity", ""⟩

/-- A code point within a string. -/
def escaped (c : CodePoint) : Text :=
  if c = '"' then ['\\', '"']
  else if c = '\\' then ['\\', '\\']
  else if c = '\n' then ['\\', 'n']
  else if c = '\r' then ['\\', 'r']
  else if c = '\t' then ['\\', 't']
  else if c = '\x0c' then ['\\', 'f']
  else if c = '\x08' then ['\\', 'b']
  else if c.toNat < 0x20 then "\\u" ++ Text.hexDigits 4 c.toNat
  else [c]

/-- A string in its quotes. -/
def writeString (s : Text) : Text :=
  "\"" ++ s.flatMap escaped ++ "\""

/-- How values are laid out: over several lines, every level indented by a number
    of spaces, or on a single line. -/
abbrev Layout := Option Nat

/-- What separates an opening bracket from the first item at a level, and the
    last item at the level from the closing bracket one level above. -/
def Layout.lineBreak (layout : Layout) (level : Nat) : Text :=
  match layout with
  | some width => '\n' :: List.replicate (width * level) ' '
  | none => []

/-- What separates two items at a level. -/
def Layout.separator (layout : Layout) (level : Nat) : Text :=
  match layout with
  | some _ => "," ++ layout.lineBreak level
  | none => ", "

mutual

/-- A value that stands at a level of nesting. -/
def write (layout : Layout) (level : Nat) : Json → Text
  | null => "null"
  | bool true => "true"
  | bool false => "false"
  | int n => toString n
  | float x => x.toText numberStyle
  | str s => writeString s
  | arr [] => "[]"
  | arr (item :: rest) =>
    "[" ++ layout.lineBreak (level + 1) ++ write layout (level + 1) item ++
      writeItems layout (level + 1) rest ++ layout.lineBreak level ++ "]"
  | obj [] => "\x7b\x7d"
  | obj ((name, value) :: rest) =>
    "\x7b" ++ layout.lineBreak (level + 1) ++ writeString name ++ ": " ++
      write layout (level + 1) value ++ writeMembers layout (level + 1) rest ++
      layout.lineBreak level ++ "\x7d"

/-- The items of an array after the first. -/
def writeItems (layout : Layout) (level : Nat) : List Json → Text
  | [] => []
  | item :: rest =>
    layout.separator level ++ write layout level item ++ writeItems layout level rest

/-- The members of an object after the first. -/
def writeMembers (layout : Layout) (level : Nat) : List (Text × Json) → Text
  | [] => []
  | (name, value) :: rest =>
    layout.separator level ++ writeString name ++ ": " ++ write layout level value ++
      writeMembers layout level rest

end

end KeyAudit.Json
