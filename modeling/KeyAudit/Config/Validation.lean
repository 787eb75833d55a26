import KeyAudit.Config.Basic
import KeyAudit.Config.Extension
import KeyAudit.Config.Refusal
import KeyAudit.Number.Numeral

/-!
# Validating settings

Settings come as values under names, from a file or from a command. Validation
reads each value as what it is meant to be, generously: a number may be given as
a text, a switch as a word. All refused settings are collected, those that an
audit knows first, in their order, then the unknown ones.

Two things end the validation at once. Extensions that are a number or a truth
value cannot be gone through at all, which is no refused setting. A name that is
no text, as it holds the half of a surrogate pair, is the only thing refused then.
-/

namespace KeyAudit

namespace Setting

/-- Reads a text as an integer. -/
def integerText (s : Text) : Except Issue Int :=
  if Text.holdsHalf s then .error .notText
  else match Number.ofNumeral s with
    | .ok n => .ok n
    | .error .unreadable => .error .unreadableInteger
    | .error .tooLong => .error .tooLarge

/-- The integers of 64 bits lie below `2 ^ 63` in size. -/
def wordLimit : Nat := 9223372036854775808

/-- Reads a value as an integer. -/
def integer : Json → Except Issue Int
  | .int n => .ok n
  | .bool b => .ok (if b then 1 else 0)
  | .float x =>
    if !x.isFinite then .error .notFinite
    else match x.toInt? with
      | some n => if n.natAbs < wordLimit then .ok n else .error .tooLarge
      | none => .error .fractional
  | .str s => integerText s
  | _ => .error .notInteger

/-- Reads a value as a number of lines. -/
def threshold (j : Json) : Except Issue Nat :=
  match integer j with
  | .ok n => if n < 0 then .error .negative else .ok n.toNat
  | .error issue => .error issue

/-- Reads a value as a path. -/
def path : Json → Except Issue Path
  | .str s => .ok (Path.ofText s)
  | _ => .error .notPath

/-- The words that turn a switch off. -/
def offWords : List String := ["0", "off", "f", "false", "n", "no"]

/-- The words that turn a switch on. -/
def onWords : List String := ["1", "on", "t", "true", "y", "yes"]

/-- Reads an integer as a switch. Another integer than zero and one is unclear; one
    that takes more than 64 bits is none at all. -/
def switchInteger (n : Int) : Except Issue Bool :=
  if n = 0 then .ok false
  else if n = 1 then .ok true
  else if -(wordLimit : Int) ≤ n ∧ n < wordLimit then .error .unclearSwitch
  else .error .notSwitch

/-- Reads a floating point number as a switch. It is read like the integer that it
    equals, but the least integer of 64 bits is out of its reach. -/
def switchNumber (x : Binary64) : Except Issue Bool :=
  match x.toInt? with
  | some n => if n.natAbs < wordLimit then switchInteger n else .error .notSwitch
  | none => .error .notSwitch

/-- Reads a value as a switch. -/
def switch : Json → Except Issue Bool
  | .bool b => .ok b
  | .int n => switchInteger n
  | .float x => switchNumber x
  | .str s =>
    match Text.string? s with
    | none => .error .notText
    | some word =>
      if offWords.contains word.toLower then .ok false
      else if onWords.contains word.toLower then .ok true
      else .error .unclearSwitch
  | _ => .error .notSwitch

/-- The kind of a value that cannot be gone through. -/
inductive Scalar
  | integer
  | number
  | truthValue
deriving Repr, DecidableEq

/-- The wording for a value of the kind. -/
def Scalar.message : Scalar → Text
  | .integer => "'int' object is not iterable"
  | .number => "'float' object is not iterable"
  | .truthValue => "'bool' object is not iterable"

/-- The texts that a value holds: a string is one text, an array holds the texts
    of its items, an object its names. -/
def texts : Json → Except Scalar (List Text)
  | .null => .ok []
  | .str s => .ok [s]
  | .arr items => .ok (items.map Json.text)
  | .obj members => .ok (members.map fun m => m.1)
  | .int _ => .error .integer
  | .float _ => .error .number
  | .bool _ => .error .truthValue

/-- Reads a value as a set of extensions. -/
def extensions (j : Json) : Except Scalar (List Text) :=
  match texts j with
  | .ok ts => .ok (Extension.ofTexts ts)
  | .error kind => .error kind

/-- An array of strings gives the set of their extensions. -/
theorem extensions_strings (ts : List Text) :
    extensions (.arr (ts.map Json.str)) = .ok (Extension.ofTexts ts) := by
  have htexts : (ts.map Json.str).map Json.text = ts := by
    rw [List.map_map]
    exact List.map_id _
  rw [extensions, texts, htexts]

end Setting

/-- Why settings make no configuration. -/
inductive SettingsError
  /-- The extensions cannot be gone through. -/
  | notIterable (kind : Setting.Scalar)
  /-- Some settings are refused. -/
  | refused (first : Refusal) (rest : List Refusal)

namespace Config

/-- The name of the setting that holds the extensions. -/
def extensionsName : Text := "allowed_extensions"

/-- The names of the settings. -/
def settingNames : List Text := [
  "source_file_path", "project_path", "min_occurrence_threshold", extensionsName,
  "report_empty_values", "verbose", "recursive", "use_index"]

variable {α : Type}

/-- A setting that has to be given. -/
def required (given : List (Text × Json)) (name : Text) (read : Json → Except Issue α) :
    Validation α :=
  match given.lookup name with
  | some j => .ofValue [name] j (read j)
  | none => .ofValue [name] (.obj given) (.error .missing)

/-- A setting that may be left out. -/
def optional (given : List (Text × Json)) (name : Text) (default : α)
    (read : Json → Except Issue α) : Validation α :=
  match given.lookup name with
  | some j => .ofValue [name] j (read j)
  | none => .valid default

/-- The settings that an audit does not know. -/
def unknownSettings (given : List (Text × Json)) : Validation Unit :=
  match (given.filter fun s => !settingNames.contains s.1).map fun s =>
      (⟨[s.1], .unknown, s.2⟩ : Refusal) with
  | [] => .valid ()
  | first :: rest => .invalid first rest

/-- The name of a setting that is no text, if there is one. -/
def brokenName? (given : List (Text × Json)) : Option Text :=
  (given.map Prod.fst).find? Text.holdsHalf

/-- Validates settings whose extensions are known. -/
def validate (given : List (Text × Json)) (extensions : List Text) : Validation Config :=
  (Validation.valid fun source project threshold empty verbose recursive useIndex (_ : Unit) =>
      (⟨source, project, threshold, extensions, empty, verbose, recursive, useIndex⟩ : Config))
    |>.ap (required given "source_file_path" Setting.path)
    |>.ap (required given "project_path" Setting.path)
    |>.ap (required given "min_occurrence_threshold" Setting.threshold)
    |>.ap (optional given "report_empty_values" false Setting.switch)
    |>.ap (optional given "verbose" false Setting.switch)
    |>.ap (optional given "recursive" true Setting.switch)
    |>.ap (optional given "use_index" false Setting.switch)
    |>.ap (unknownSettings given)

/-- Makes a configuration of settings. -/
def ofSettings (given : List (Text × Json)) : Except SettingsError Config :=
  match Setting.extensions ((given.lookup extensionsName).getD .null) with
  | .error kind => .error (.notIterable kind)
  | .ok extensions =>
    match brokenName? given with
    | some name => .error (.refused ⟨[], .notText, .str name⟩ [])
    | none =>
      match validate given extensions with
      | .valid config => .ok config
      | .invalid first rest => .error (.refused first rest)

end Config

end KeyAudit
