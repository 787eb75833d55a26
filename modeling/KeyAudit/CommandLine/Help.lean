import KeyAudit.CommandLine.Request

/-!
# Help

The texts that explain the program and its commands.
-/

namespace KeyAudit.CommandLine

/-- What a command is for. -/
def Verb.purpose : Verb → Text
  | check => "Check which keys of a resource file are unused in a project."
  | run => "Run the audit described by a JSON configuration file."
  | version => "Show locheck version information."

/-- What the program is for. -/
def purpose : Text :=
  "Find keys of a Localizable.strings file that are unused in a project."

/-- What the options do. -/
def optionLines : Scope → List Text
  | none => [
    "  -d, --display TEXT  Output format: text, json or yaml",
    "  -h, --help          Show this message and exit."]
  | some .check => [
    "  -e, --extensions TEXT            Extensions of the files to search, separated by commas.",
    "  --log-empty-values               Also report keys with an empty value.",
    "  --anxious-mode, --verbose        Also report keys that are used.",
    "  --recursive / --no-recursive     Search subdirectories.",
    "  --index                          Read the project only once.",
    "  -h, --help                       Show this message and exit."]
  | some _ => ["  -h, --help  Show this message and exit."]

/-- The name of a command, filled up with spaces to the width of the longest. -/
def Verb.paddedName (v : Verb) : Text :=
  v.name ++ (List.replicate (7 - v.name.length) ' ' : Text)

/-- The commands with their purposes. -/
def commandLines : Scope → List Text
  | none => "" :: "Commands:" :: Verb.all.map fun v => "  " ++ v.paddedName ++ "  " ++ v.purpose
  | some _ => []

/-- The text that explains the program or a command. -/
def helpText (scope : Scope) : Text :=
  let head : List Text := ["", "  " ++ scope.elim purpose Verb.purpose, "", "Options:"]
  let lines := head ++ optionLines scope ++ commandLines scope
  scope.usage ++ Text.join "\n" lines ++ "\n"

end KeyAudit.CommandLine
