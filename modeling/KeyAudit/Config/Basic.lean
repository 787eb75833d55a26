import KeyAudit.FileSystem.Walk
import KeyAudit.Json.Basic

/-!
# Configurations

What an audit is to do: which keys to look for, where, and what to report.
`Config.settings` gives the settings of a configuration by their names, in the
order in which they are always listed, and `Config.banner` describes an audit
before it runs.
-/

namespace KeyAudit

/-- The settings of an audit. -/
structure Config where
  /-- The resource file that holds the keys. -/
  source : Path
  /-- The directory in which the keys are searched. -/
  project : Path
  /-- A key found on so many lines or fewer counts as unused. -/
  threshold : Nat
  /-- The extensions of the files to search, an increasing list; none stands for
      all files. -/
  extensions : List Text
  /-- Whether keys with an empty value are reported. -/
  reportEmptyValues : Bool
  /-- Whether keys that are used are reported. -/
  verbose : Bool
  /-- Whether directories within the project are searched. -/
  recursive : Bool
  /-- Whether the project is read once instead of once per key. -/
  useIndex : Bool
deriving Repr, DecidableEq

namespace Config

/-- The settings by their names. -/
def settings (c : Config) : List (Text × Json) := [
  ("source_file_path", .str c.source.toText),
  ("project_path", .str c.project.toText),
  ("min_occurrence_threshold", .int c.threshold),
  ("allowed_extensions", .arr (c.extensions.map Json.str)),
  ("report_empty_values", .bool c.reportEmptyValues),
  ("verbose", .bool c.verbose),
  ("recursive", .bool c.recursive),
  ("use_index", .bool c.useIndex)]

/-- What the walk through the project looks for. -/
def walkOptions (c : Config) : WalkOptions where
  extensions := c.extensions
  recursive := c.recursive

/-- The files to be searched, in words. -/
def describeExtensions : List Text → Text
  | [] => "in all files"
  | [extension] => "in files with extension " ++ extension
  | extensions => "in files with extensions " ++ Text.join ", " extensions

/-- The lines that describe an audit. -/
def banner (c : Config) : List Text := List.flatten [
  ["Checking keys from file...",
    "\t" ++ c.source.toText,
    describeExtensions c.extensions ++ " from directory...",
    "\t" ++ c.project.toText],
  if c.reportEmptyValues then ["Empty values will be logged."] else [],
  if c.verbose then
    ["Anxious mode is enabled. Every key found in the project will be printed."] else [],
  ["Running... (it may take quite long, enable anxious mode to see each key as it is checked)"]]

end Config

end KeyAudit
