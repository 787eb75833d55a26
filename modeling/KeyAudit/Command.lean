import KeyAudit.Audit.Run
import KeyAudit.Fault

/-!
# Commands

What a user may ask for: an audit described by arguments, an audit described by
a configuration file, and the version of the program. A command is made first,
which announces what it is going to do, and then carried out. An audit whose
settings are refused is a command as well: one that does nothing but fail.
-/

namespace KeyAudit

/-- What a user asks for. -/
inductive Command
  /-- An audit. -/
  | audit (config : Config)
  /-- An audit whose settings are refused, with the paths as they were given. -/
  | misconfigured (message source project : Text)
  /-- The version of the program. -/
  | version (text : Text)

namespace Command

/-- What a command is going to do. -/
def announcement : Command → Text
  | audit config => Text.join "\n" config.banner
  | misconfigured .. => "Loading audit configuration..."
  | version _ => "Getting version information..."

/-- The outcome of a command that does nothing but fail. -/
def refusal (message source project : Text) : Outcome :=
  (Ending.misconfigured message).outcome (.blank source project)

/-- The outcome of asking for the version. -/
def versionOutcome (text : Text) : Outcome where
  result := "locheck version: " ++ text
  success := true
  output := [("errors", .arr []), ("warnings", .arr []), ("version", .str text)]

/-- Carries out a command. -/
def perform {σ : Type} [Scene σ] (s : σ) : Command → Report
  | audit config => config.report s
  | misconfigured message source project => ⟨[], [], .ok (refusal message source project)⟩
  | version text => ⟨[], [], .ok (versionOutcome text)⟩

/-- The arguments that describe an audit. -/
structure Arguments where
  source : Text
  project : Text
  threshold : Json
  extensions : Json
  reportEmptyValues : Json
  verbose : Json
  recursive : Json
  useIndex : Json

/-- Whether a value stands for nothing. -/
def isNothing : Json → Bool
  | .null => true
  | .bool b => !b
  | .int n => n = 0
  | .float x => x.toInt? == some 0
  | .str s => s = ""
  | .arr items => items.isEmpty
  | .obj members => members.isEmpty

/-- The settings that arguments stand for, with the paths in full. -/
def Arguments.settings (a : Arguments) (source project : Path) : List (Text × Json) := [
  ("source_file_path", .str source.toText),
  ("project_path", .str project.toText),
  ("min_occurrence_threshold", a.threshold),
  ("allowed_extensions", if isNothing a.extensions then .arr [] else a.extensions),
  ("report_empty_values", a.reportEmptyValues),
  ("verbose", a.verbose),
  ("recursive", a.recursive),
  ("use_index", a.useIndex)]

/-- The audit that arguments describe. -/
def ofArguments (env : Environment) (a : Arguments) : Except Fault Command := do
  let source ← (env.expandUser (Path.ofText a.source)).mapError Fault.home
  let project ← (env.expandUser (Path.ofText a.project)).mapError Fault.home
  match Config.ofSettings (a.settings source project) with
  | .ok config => return audit config
  | .error (.notIterable kind) => throw (.notIterable kind)
  | .error (.refused first _) =>
    let message := "Invalid argument " ++ first.placeName ++ ": " ++ first.issue.message
    return misconfigured message a.source a.project

/-- Whether a configuration file that gives no configuration makes a command that
    fails; other errors leave the program. -/
def isReported : LoadError → Bool
  | .inaccessible error => !error.isRefusal
  | .notIterable _ => false
  | .tooDeep _ => false
  | _ => true

/-- The audit that a configuration file describes. A file without a configuration,
    and a path that cannot be the name of a file, make a command that fails. -/
def ofFile (env : Environment) (fs : FileSystem) (path : Text) : Except Fault Command :=
  match env.expandUser (Path.ofText path) with
  | .error (.unusable error) => .ok (misconfigured error.message "" "")
  | .error error => .error (.home error)
  | .ok path =>
    match Config.load fs path with
    | .ok config => .ok (audit config)
    | .error error =>
      if isReported error then .ok (misconfigured error.message "" "")
      else .error (.load error)

end Command

/-- What is on its way for a command. -/
inductive Course
  /-- Nothing: the command has not been started, or it has ended. -/
  | idle
  /-- Work that ends with its first step. -/
  | brief (outcome : Outcome)
  /-- An audit. -/
  | audit (run : Run)

/-- A command that has been made, with its latest outcome and what is on its way. -/
structure Prepared where
  command : Command
  outcome : Outcome
  course : Course
  /-- Whether what is on its way was started for an earlier command. -/
  isForeign : Bool

namespace Prepared

/-- A command that has not been started. -/
def ofCommand (command : Command) : Prepared := ⟨command, .pending, .idle, false⟩

/-- Another command in place of one. What is on its way stays, but its outcome
    is no longer asked for. -/
def replace (p : Prepared) (command : Command) : Prepared :=
  ⟨command, .pending, p.course, true⟩

/-- Starts a command; it does nothing before its first step. -/
def start (p : Prepared) : Prepared :=
  { p with
    course :=
      match p.command with
      | .audit config => .audit (Run.start config)
      | .misconfigured message source project => .brief (Command.refusal message source project)
      | .version text => .brief (Command.versionOutcome text)
    isForeign := false }

/-- What is left when the course ends with an outcome. -/
def finish (p : Prepared) (outcome : Outcome) : Prepared :=
  { p with
    outcome := if p.isForeign then p.outcome else outcome
    course := .idle }

/-- The result of a step of a command. -/
structure Step where
  records : List Record
  event : Except AccessError (Option Finding)
  after : Prepared

/-- Carries out the next step of a command. Its latest outcome stays until another
    one takes its place. -/
def next {σ : Type} [Scene σ] (s : σ) (p : Prepared) : Step :=
  match p.course with
  | .idle => ⟨[], .ok none, p⟩
  | .brief outcome => ⟨[], .ok none, p.finish outcome⟩
  | .audit run =>
    match run.next s with
    | (records, .event f rest) => ⟨records, .ok (some f), { p with course := .audit rest }⟩
    | (records, .ended outcome) => ⟨records, .ok none, p.finish outcome⟩
    | (records, .broken error) => ⟨records, .error error, { p with course := .idle }⟩

end Prepared

end KeyAudit
