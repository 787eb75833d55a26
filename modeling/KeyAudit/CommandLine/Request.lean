import KeyAudit.CommandLine.Options
import KeyAudit.Console.Transcript
import KeyAudit.Number.Integer
import KeyAudit.Text.ControlSequence
import KeyAudit.Version

/-!
# Requests

What a command line asks for. The options of the program come first, then the
name of a command, then its options and arguments.

* `Request.ofLine` reads a command line;
* `UsageError.message` words what is wrong with one. Most errors are shown with
  a hint at how the command is used.
-/

namespace KeyAudit.CommandLine

/-- The name of the program. -/
def programName : Text := "locheck"

/-- The commands of the program. -/
inductive Verb
  | check
  | run
  | version
deriving Repr, DecidableEq

namespace Verb

/-- All commands. -/
def all : List Verb := [check, run, version]

/-- The name of a command, as it is typed. -/
def name : Verb → Text
  | check => "check"
  | run => "run"
  | version => "version"

/-- The names of the arguments. -/
def arguments : Verb → List Text
  | check => ["SOURCE_FILE_PATH", "PROJECT_PATH", "ALLOW_NB_TIMES"]
  | run => ["CONFIG_PATH"]
  | version => []

/-- The command of a name. -/
def ofName? (s : Text) : Option Verb := all.find? fun v => v.name = s

end Verb

/-- Where on a command line something is wrong: before the name of the command,
    or after it. -/
abbrev Scope := Option Verb

namespace Scope

/-- What is typed to get there. -/
def path : Scope → Text
  | none => programName
  | some verb => programName ++ " " ++ verb.name

/-- What comes after that. -/
def pattern : Scope → Text
  | none => "[OPTIONS] [COMMAND] [ARGS]..."
  | some verb => Text.join " " ("[OPTIONS]" :: verb.arguments)

/-- How the program or a command is used. -/
def usage (s : Scope) : Text := "Usage: " ++ s.path ++ " " ++ s.pattern ++ "\n"

end Scope

/-- What is wrong with a command line. -/
inductive UsageError
  | unknownCommand (name : Text)
  | option (scope : Scope) (error : OptionError)
  | missing (verb : Verb) (argument : Text)
  | notInteger (verb : Verb) (argument value : Text)
  | negative (verb : Verb) (argument : Text) (value : Int)
  | unexpected (verb : Verb) (arguments : List Text)
  | unknownFormat (format : Text)
deriving Repr, DecidableEq

namespace UsageError

/-- Where the error is, if a hint at the usage helps. -/
def hint? : UsageError → Option Scope
  | unknownCommand _ => some none
  | option scope (.unknown _) => some scope
  | option _ _ => none
  | missing verb _ => some (some verb)
  | notInteger verb _ _ => some (some verb)
  | negative verb _ _ => some (some verb)
  | unexpected verb _ => some (some verb)
  | unknownFormat _ => none

/-- What is wrong, in words. -/
def message : UsageError → Text
  | unknownCommand name => "No such command " ++ Text.quoted name ++ "."
  | option _ (.unknown name) => "No such option " ++ Text.quoted name ++ "."
  | option _ (.valueMissing name) =>
    "Option " ++ Text.quoted name ++ " requires an argument."
  | option _ (.valueUnexpected name) =>
    "Option " ++ Text.quoted name ++ " does not take a value."
  | missing _ argument => "Missing argument '" ++ argument ++ "'."
  | notInteger _ argument value =>
    "Invalid value for '" ++ argument ++ "': " ++ Text.quoted value ++
      " is not a valid integer range."
  | negative _ argument value =>
    "Invalid value for '" ++ argument ++ "': " ++ toString value ++ " is not in the range x>=0."
  | unexpected _ [argument] => "Got unexpected extra argument (" ++ argument ++ ")"
  | unexpected _ arguments =>
    "Got unexpected extra arguments (" ++ Text.join " " arguments ++ ")"
  | unknownFormat format =>
    "--display must be one of " ++ Text.join ", " Console.formats ++ ", got '" ++ format ++ "'"

/-- The hint at the usage. -/
def hint (e : UsageError) : List Console.Output :=
  match e.hint? with
  | some scope => [.verbatim (scope.usage ++ "Try '" ++ scope.path ++ " --help' for help.\n\n")]
  | none => []

/-- What is written about an error, without the control sequences of what was
    typed. -/
def outputs (e : UsageError) : List Console.Output :=
  e.hint ++ [.verbatim (Text.dropSequences ("Error: " ++ e.message ++ "\n"))]

end UsageError

/-- What the options of the program set. -/
inductive ProgramSetting
  | help
  | format (name : Text)
deriving DecidableEq

/-- The options of the program. -/
def programChoices : List (Choice ProgramSetting) := [
  ⟨["--display", "-d"], .value .format⟩,
  ⟨["-h", "--help"], .flag .help⟩]

/-- What the options of a command set. -/
inductive VerbSetting
  | help
  | extensions (names : Text)
  | reportEmptyValues
  | verbose
  | recursive (on : Bool)
  | useIndex
deriving DecidableEq

/-- The options of a command. -/
def verbChoices : Verb → List (Choice VerbSetting)
  | .check => [
    ⟨["--extensions", "-e"], .value .extensions⟩,
    ⟨["--log-empty-values"], .flag .reportEmptyValues⟩,
    ⟨["--anxious-mode", "--verbose"], .flag .verbose⟩,
    ⟨["--recursive"], .flag (.recursive true)⟩,
    ⟨["--no-recursive"], .flag (.recursive false)⟩,
    ⟨["--index"], .flag .useIndex⟩,
    ⟨["-h", "--help"], .flag .help⟩]
  | _ => [⟨["-h", "--help"], .flag .help⟩]

/-- What a command line asks for. -/
inductive Request
  /-- To explain the program or a command. -/
  | help (scope : Scope)
  /-- To check the keys of a file. -/
  | check (format : Text) (arguments : Command.Arguments)
  /-- To run the audit that a file describes. -/
  | run (format : Text) (path : Text)
  /-- To tell the version. -/
  | version (format : Text)

/-- The arguments of a check with what its options set. -/
def checkArguments (settings : List VerbSetting) (source project : Text) (threshold : Int) :
    Command.Arguments where
  source := source
  project := project
  threshold := .int threshold
  extensions := .arr (settings.filterMap fun
    | .extensions names => some (.str names)
    | _ => none)
  reportEmptyValues := .bool (settings.contains .reportEmptyValues)
  verbose := .bool (settings.contains .verbose)
  recursive := .bool ((settings.filterMap fun
    | .recursive on => some on
    | _ => none).getLast?.getD true)
  useIndex := .bool (settings.contains .useIndex)

/-- Makes sure that a command has no more arguments than it takes. -/
def noMore (verb : Verb) : List Text → Except UsageError Unit
  | [] => .ok ()
  | arguments => .error (.unexpected verb arguments)

/-- Reads a number of lines. -/
def readThreshold (verb : Verb) (argument value : Text) : Except UsageError Int :=
  match Number.integer? value with
  | none => .error (.notInteger verb argument value)
  | some n => if n < 0 then .error (.negative verb argument n) else .ok n

/-- Reads the arguments of a command. What is missing or wrong is reported from
    left to right, what is too much at the end. -/
def readArguments (format : Text) (verb : Verb) (line : Line VerbSetting) :
    Except UsageError Request :=
  match verb, line.arguments with
  | .check, [] => .error (.missing verb "SOURCE_FILE_PATH")
  | .check, [_] => .error (.missing verb "PROJECT_PATH")
  | .check, [_, _] => .error (.missing verb "ALLOW_NB_TIMES")
  | .check, source :: project :: value :: rest => do
    let threshold ← readThreshold verb "ALLOW_NB_TIMES" value
    noMore verb rest
    return .check format (checkArguments line.settings source project threshold)
  | .run, [] => .error (.missing verb "CONFIG_PATH")
  | .run, path :: rest => do
    noMore verb rest
    return .run format path
  | .version, rest => do
    noMore verb rest
    return .version format

/-- Reads what follows the name of a command. -/
def readVerb (format : Text) (verb : Verb) (args : List Text) :
    Except UsageError Request := do
  let line ← (readLine (verbChoices verb) true args).mapError (.option (some verb))
  if line.settings.contains .help then return .help (some verb)
  readArguments format verb line

/-- The format that the options of the program ask for. -/
def formatOf (settings : List ProgramSetting) : Text :=
  (settings.filterMap fun
    | .format name => some name
    | .help => none).getLast?.getD Console.textFormat

/-- Makes sure that a format is known. -/
def knownFormat (format : Text) : Except UsageError Unit :=
  if Console.formats.contains format then .ok () else .error (.unknownFormat format)

/-- Reads the options of the program. -/
def readProgram (args : List Text) : Except UsageError (Line ProgramSetting) :=
  (readLine programChoices false args).mapError (.option none)

/-- Reads a command line. What looks like an option in the place of a command is
    given a second chance to be one. -/
def Request.ofLine (args : List Text) : Except UsageError Request := do
  let line ← readProgram args
  if line.settings.contains .help then return .help none
  let format := formatOf line.settings
  match line.arguments with
  | [] =>
    knownFormat format
    return .help none
  | name :: rest =>
    match Verb.ofName? name with
    | some verb =>
      knownFormat format
      readVerb format verb rest
    | none =>
      let again ← readProgram (name :: rest)
      if again.settings.contains .help then return .help none
      throw (.unknownCommand name)

end KeyAudit.CommandLine
