import KeyAudit.CommandLine.Help
import KeyAudit.Host

/-!
# The program

The program reads its command line, carries out what is asked for and shows it.
Before that it configures logging, unless it is only asked for its version.
-/

namespace KeyAudit.CommandLine

/-- The option that asks for the version alone. -/
def versionOption : Text := "--version"

/-- Makes the command that is asked for and shows it; the log records are kept. -/
def perform (host : Host) (format : Text) (command : Except Fault Command) :
    List Record × Transcript :=
  match command with
  | .error fault => ([], .broken fault)
  | .ok command => Console.performAndPresent format host command

/-- Answers a request. -/
def answer (host : Host) (version : Text) : Request → List Record × Transcript
  | .help scope => ([], .shown [.verbatim (helpText scope)] (.ok 0))
  | .check format arguments =>
    perform host format (Command.ofArguments host.environment arguments)
  | .run format path => perform host format (Command.ofFile host.environment host.fs path)
  | .version format => perform host format (.ok (.version version))

/-- Runs the program with some arguments. -/
def runProgram (version : Text) (host : Host) (args : List Text) : Host × Transcript :=
  if args.contains versionOption then
    (host, .shown [.verbatim (programName ++ " " ++ version ++ "\n")] (.ok 0))
  else
    match host.configureLogging none .info with
    | (host, some fault) => (host, .broken fault)
    | (host, none) =>
      match Request.ofLine args with
      | .error error => (host, .complained error.outputs 2)
      | .ok request =>
        let (records, transcript) := answer host version request
        (Scene.record host records, transcript)

end KeyAudit.CommandLine
