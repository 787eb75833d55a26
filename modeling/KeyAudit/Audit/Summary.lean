import KeyAudit.Assignment
import KeyAudit.Finding
import KeyAudit.Config.Validation

/-!
# Summaries

What an audit has found, as data: the diagnostics that stopped it, the warnings,
how many keys were checked, and the unused, the empty and, if asked for, the used
keys. A summary grows with every finding (`Summary.add`). A key that is found
again keeps its place and takes the new count.
-/

namespace KeyAudit

/-- The findings of an audit, collected. -/
structure Summary where
  errors : List Text
  warnings : List Text
  source : Text
  project : Text
  keysChecked : Int
  unusedKeys : List (Text × Int)
  emptyValueKeys : List Text
  usedKeys : List (Text × Int)
deriving Repr, DecidableEq

namespace Summary

/-- The summary of an audit that has found nothing yet. -/
def blank (source project : Text) : Summary where
  errors := []
  warnings := []
  source := source
  project := project
  keysChecked := 0
  unusedKeys := []
  emptyValueKeys := []
  usedKeys := []

/-- The summary with one more finding. Used keys are only kept if they are to be
    reported. -/
def add (verbose : Bool) (s : Summary) (f : Finding) : Summary :=
  match f.kind with
  | .emptyValue =>
    { s with
      emptyValueKeys := s.emptyValueKeys ++ [f.key]
      warnings := s.warnings ++ [f.message] }
  | .unused =>
    { s with
      keysChecked := s.keysChecked + 1
      unusedKeys := assign f.key f.count s.unusedKeys }
  | .used =>
    { s with
      keysChecked := s.keysChecked + 1
      usedKeys := if verbose then assign f.key f.count s.usedKeys else s.usedKeys }

/-- Findings about values are collected in their order, and leave all else as it is. -/
theorem foldl_add_warnings (verbose : Bool) (s : Summary) {findings : List Finding}
    (h : ∀ f ∈ findings, f.kind = .emptyValue) :
    findings.foldl (add verbose) s =
      { s with
        emptyValueKeys := s.emptyValueKeys ++ findings.map Finding.key
        warnings := s.warnings ++ findings.map Finding.message } := by
  induction findings generalizing s with
  | nil => simp
  | cons f findings ih =>
    rw [List.foldl_cons, ih _ fun g hg => h g (List.mem_cons_of_mem _ hg), add,
      h f List.mem_cons_self]
    simp

/-- The summary with one more diagnostic. -/
def fail (message : Text) (s : Summary) : Summary :=
  { s with errors := s.errors ++ [message] }

/-- Strings as a value. -/
def stringsValue (strings : List Text) : Json := .arr (strings.map Json.str)

/-- Keys with their counts as a value. -/
def countsValue (counts : List (Text × Int)) : Json := .obj (counts.map fun c => (c.1, .int c.2))

/-- The summary by the names of its parts. -/
def members (s : Summary) : List (Text × Json) := [
  ("errors", stringsValue s.errors),
  ("warnings", stringsValue s.warnings),
  ("source_file_path", .str s.source),
  ("project_path", .str s.project),
  ("keys_checked", .int s.keysChecked),
  ("unused_keys", countsValue s.unusedKeys),
  ("empty_value_keys", stringsValue s.emptyValueKeys),
  ("used_keys", countsValue s.usedKeys)]

/-- Reads a string. -/
def readString (place : List Text) : Json → Validation Text
  | .str s => .valid s
  | j => .ofValue place j (.error .notString)

/-- Reads an integer. -/
def readInteger (place : List Text) (j : Json) : Validation Int :=
  .ofValue place j (Setting.integer j)

/-- Reads an array of strings. -/
def readStrings (place : List Text) : Json → Validation (List Text)
  | .arr items =>
    .all (items.zipIdx.map fun (j, i) => readString (place ++ [Text.ofString (toString i)]) j)
  | j => .ofValue place j (.error .notList)

/-- Reads an object of counts. -/
def readCounts (place : List Text) : Json → Validation (List (Text × Int))
  | .obj members => .all (members.map fun (name, j) =>
      (Validation.valid (name, ·)).ap (readInteger (place ++ [name]) j))
  | j => .ofValue place j (.error .notObject)

/-- Reads a part of a summary. -/
def readPart {α : Type} (given : List (Text × Json)) (name : Text) (default : Option α)
    (read : List Text → Json → Validation α) : Validation α :=
  match given.lookup name, default with
  | some j, _ => read [name] j
  | none, some a => .valid a
  | none, none => .ofValue [name] (.obj given) (.error .missing)

/-- Reads a summary from its parts. Only the two paths have to be there. -/
def ofMembers (given : List (Text × Json)) : Validation Summary :=
  (Validation.valid Summary.mk)
    |>.ap (readPart given "errors" (some []) readStrings)
    |>.ap (readPart given "warnings" (some []) readStrings)
    |>.ap (readPart given "source_file_path" none readString)
    |>.ap (readPart given "project_path" none readString)
    |>.ap (readPart given "keys_checked" (some 0) readInteger)
    |>.ap (readPart given "unused_keys" (some []) readCounts)
    |>.ap (readPart given "empty_value_keys" (some []) readStrings)
    |>.ap (readPart given "used_keys" (some []) readCounts)

end Summary

end KeyAudit
