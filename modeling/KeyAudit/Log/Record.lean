import KeyAudit.Config.Basic
import KeyAudit.Json.Literal
import KeyAudit.Number.Integer

/-!
# Log records

What an audit reports in the log, as the things that happened. Every record has
a level, the channel that it comes through and a message.

A message is made whatever numbers are in it, though an interpreter refuses to write a
number of more than `Number.digitLimit` digits. Where this matters, it has to be said
of the numbers of the records (`Record.numbers`) that they can be written.
-/

namespace KeyAudit

/-- How much a log record matters: the more, the higher it ranks. -/
structure Level where
  rank : Int
deriving Repr, DecidableEq

namespace Level

/-- No level in particular. -/
def unset : Level := ⟨0⟩

def debug : Level := ⟨10⟩

def info : Level := ⟨20⟩

def warning : Level := ⟨30⟩

def error : Level := ⟨40⟩

def critical : Level := ⟨50⟩

/-- The levels that have names of their own. -/
def named : List (Level × Text) :=
  [(unset, "NOTSET"), (debug, "DEBUG"), (info, "INFO"), (warning, "WARNING"), (error, "ERROR"),
    (critical, "CRITICAL")]

/-- The name of a level. -/
def name (level : Level) : Text :=
  (named.lookup level).getD ("Level " ++ toString level.rank)

/-- The other names of levels. -/
def otherNames : List (Text × Level) := [("WARN", warning), ("FATAL", critical)]

/-- The level of a name. -/
def ofName? (s : Text) : Option Level :=
  ((named.find? fun level => level.2 = s).map Prod.fst).or (otherNames.lookup s)

end Level

/-- A line for the log. -/
structure LogLine where
  level : Level
  /-- The name of the channel that the line comes through. -/
  channel : Text
  message : Text
deriving Repr, DecidableEq

/-- Something that happened during an audit. -/
inductive Record
  /-- A file gave no lines. -/
  | unreadable (file : Path) (error : TextError)
  /-- A directory could not be listed. -/
  | unlistable (directory : Unlistable)
  /-- The resource file is missing. -/
  | sourceMissing (source : Path)
  /-- The project is missing. -/
  | projectMissing (project : Path)
  /-- The audit begins. -/
  | started (config : Config)
  /-- The project has been read into an index. -/
  | indexed (lines files : Nat)
  /-- The lines that hold a key have been counted. -/
  | counted (key : Text) (count : Nat)
  /-- The audit is complete. -/
  | finished (checked unused : Int)

namespace Record

/-- How much a record matters. -/
def level : Record → Level
  | unreadable .. => .warning
  | unlistable .. => .error
  | sourceMissing .. => .error
  | projectMissing .. => .error
  | started .. => .info
  | indexed .. => .info
  | counted .. => .debug
  | finished .. => .info

/-- The channel that a record comes through. -/
def channel : Record → Text
  | unreadable .. => "locheck.api.strings.iter_lines"
  | unlistable .. => "locheck.api.scan.iter_files"
  | indexed .. => "locheck.api.audit.iter_findings"
  | counted .. => "locheck.api.audit.iter_findings"
  | _ => "locheck.api.audit.run_audit"

/-- The wording of a record, with all numbers in full. -/
def message : Record → Text
  | unreadable file error => "Cannot read " ++ file.toText ++ ": " ++ error.message
  | unlistable directory =>
    "Could not open directory " ++ directory.path.toText ++ ": " ++ directory.error.message
  | sourceMissing source => "Source file not found: " ++ source.toText
  | projectMissing project => "Project directory not found: " ++ project.toText
  | started config => "Audit started: " ++ (Json.obj config.settings).literal
  | indexed lines files =>
    "Indexed " ++ toString lines ++ " lines from " ++ toString files ++ " files"
  | counted key count => key ++ " found " ++ toString count ++ " times"
  | finished checked unused =>
    "Audit finished: " ++ toString checked ++ " keys checked, " ++ toString unused ++ " unused"

/-- The numbers in the wording of a record. -/
def numbers : Record → List Int
  | started config => [config.threshold]
  | indexed lines files => [lines, files]
  | counted _ count => [count]
  | finished checked unused => [checked, unused]
  | _ => []

/-- The record as a line for the log. -/
def toLine (r : Record) : LogLine := ⟨r.level, r.channel, r.message⟩

end Record

end KeyAudit
