import KeyAudit.Json.Basic
import KeyAudit.Number.Decimal
import KeyAudit.Yaml.Scalar

/-!
# Values in YAML

Objects and arrays in block style: a line for every member and every item, those
of nested objects indented by two columns. The items of an array that is the value
of a member start in the column of its name. Empty objects and arrays are written
on the line where they stand. Long keys, empty ones and those of several lines
get a line of their own, marked by `?`.
-/

namespace KeyAudit.Yaml

/-- The columns by which a nested value is indented. -/
def step : Nat := 2

/-- The spelling of floating point numbers in YAML. -/
def numberStyle : NumberStyle := ⟨".nan", ".inf", ".0"⟩

/-- The greatest length of a key on the line of its value. -/
def keyLimit : Nat := 122

/-- Whether a key may stand on the line of its value. -/
def isSimpleKey (key : Text) : Bool :=
  !key.isEmpty && key.length ≤ keyLimit && !key.any isBreak

/-- What holds a value: nothing, an array at a column, or an object at a
    column. -/
inductive Holder
  | none
  | array (column : Nat)
  | object (column : Nat)

namespace Holder

/-- Where the members and items of a nested value start. -/
def inner : Holder → Nat
  | none => 0
  | array column => column + step
  | object column => column + step

/-- Where the items of a nested array start. -/
def items (h : Holder) (fresh : Bool) : Nat :=
  match h with
  | object column => if fresh then column + step else column
  | h => h.inner

/-- Where the further lines of a text start. -/
def folded : Holder → Nat
  | none => step
  | h => h.inner

/-- The place of a text. -/
def place (h : Holder) : Place where
  column := h.folded
  isKey := false
  isRoot := match h with
    | none => true
    | _ => false

end Holder

/-- Writes a text that is not a string. -/
def writeWord (h : Holder) (t : Sheet) (word : Text) : Sheet :=
  writePlain h.folded true h.place.isRoot t word

mutual

/-- Writes a value. -/
def writeValue (h : Holder) (t : Sheet) : Json → Sheet
  | .null => writeWord h t "null"
  | .bool true => writeWord h t "true"
  | .bool false => writeWord h t "false"
  | .int n => writeWord h t (toString n)
  | .float x => writeWord h t (x.toText numberStyle)
  | .str s => writeString h.place t s
  | .arr [] => (t.mark "[" true true false).mark "]" false false false
  | .arr items => writeItems (h.items t.fresh) t items
  | .obj [] => (t.mark "\x7b" true true false).mark "\x7d" false false false
  | .obj members => writeMembers h.inner t members

/-- Writes the items of an array. -/
def writeItems (column : Nat) (t : Sheet) : List Json → Sheet
  | [] => t
  | item :: rest =>
    let t := (t.indent column).mark "-" true false true
    writeItems column (writeValue (.array column) t item) rest

/-- Writes the members of an object. -/
def writeMembers (column : Nat) (t : Sheet) : List (Text × Json) → Sheet
  | [] => t
  | (name, value) :: rest =>
    let t := t.indent column
    let t :=
      if isSimpleKey name then
        (writeString ⟨column + step, true, false⟩ t name).mark ":" false false false
      else
        let t := writeString ⟨column + step, false, false⟩ (t.mark "?" true false true) name
        (t.indent column).mark ":" true false true
    writeMembers column (writeValue (.object column) t value) rest

end

/-- The text of a document. A plain text that is the whole document is closed by
    three dots. -/
def document (value : Json) : Text :=
  let t := (writeValue .none Sheet.blank value).indent 0
  let t := if t.openEnded then (t.mark "..." true false false).indent 0 else t
  t.text.reverse

end KeyAudit.Yaml
