import KeyAudit.Text.Blank
import KeyAudit.Text.Split

/-!
# Entries of a resource file

A line of a resource file may give a key a value, as in `"home.title" = "Welcome";`.
Without its blank ends such a line starts with a double quote, ends with a
semicolon, and falls into exactly two parts at its equals signs, where empty
parts do not count. So a value that holds an equals sign makes a line no entry,
while `==` between key and value does no harm. The key is the left part without
its blank ends; it keeps its quotes, and both its ends have to be quotes.

The value matters only when it is empty, that is `""`.
-/

namespace KeyAudit

/-- A key of a resource file, with its quotes. -/
structure Entry where
  key : Text
  hasEmptyValue : Bool
deriving Repr, DecidableEq

namespace Entry

/-- The parts of a text between equals signs that are not empty. -/
def parts (line : Text) : List Text :=
  (Text.splitOn '=' line).filter (· ≠ [])

/-- Whether a text without blank ends has the form of an entry. -/
def isKeyValue (line : Text) : Bool :=
  line.head? == some '"' && line.getLast? == some ';' && (parts line).length == 2

theorem isKeyValue_iff {line : Text} :
    isKeyValue line = true ↔ line.head? = some (.char '"') ∧ line.getLast? = some (.char ';') ∧
      (parts line).length = 2 := by
  simp [isKeyValue, and_assoc]

/-- Whether both ends of a text are double quotes. -/
def isQuoted (s : Text) : Bool :=
  s.head? == some '"' && s.getLast? == some '"'

theorem isQuoted_iff {s : Text} :
    isQuoted s = true ↔ s.head? = some (.char '"') ∧ s.getLast? = some (.char '"') := by
  simp [isQuoted]

/-- Whether the right part of a line, up to its semicolon, is an empty value. -/
def isEmptyValue (right : Text) : Bool :=
  let value := Text.trim right
  value.getLast? == some ';' && Text.trim value.dropLast == "\"\""

theorem isEmptyValue_iff {right : Text} :
    isEmptyValue right = true ↔ (Text.trim right).getLast? = some (.char ';') ∧
      Text.trim (Text.trim right).dropLast = [.char '"', .char '"'] := by
  simp [isEmptyValue, Text.ofString, Text.ofChars]

/-- The entry that a line holds. Empty values are told apart from others only
    if they are to be detected. -/
def ofLine? (detect : Bool) (line : Text) : Option Entry :=
  let line := Text.trim line
  if isKeyValue line then
    match parts line with
    | [left, right] =>
      let key := Text.trim left
      if isQuoted key then some ⟨key, detect && isEmptyValue right⟩ else none
    | _ => none
  else none

/-- Detecting empty values tells entries apart, and changes nothing else. -/
theorem ofLine?_eq_map (detect : Bool) (line : Text) :
    ofLine? detect line = (ofLine? true line).map fun e =>
      { e with hasEmptyValue := detect && e.hasEmptyValue } := by
  simp only [ofLine?]
  split
  · split
    · split
      · simp
      · rfl
    · rfl
  · rfl

/-- A key is a piece of its line. -/
theorem key_infix {detect : Bool} {line : Text} {e : Entry} (h : ofLine? detect line = some e) :
    e.key <:+: line := by
  simp only [ofLine?] at h
  split at h
  · split at h
    · case h_1 left right hparts =>
        split at h
        · cases h
          have hleft : left ∈ parts (Text.trim line) := hparts ▸ List.mem_cons_self
          have hpiece := Text.infix_of_mem_splitOn (List.mem_filter.1 hleft).1
          exact ((Text.trimBy_infix _ left).trans hpiece).trans (Text.trimBy_infix _ line)
        · cases h
    · cases h
  · cases h

end Entry

end KeyAudit
