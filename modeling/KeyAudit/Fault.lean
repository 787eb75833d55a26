import KeyAudit.Config.Load
import KeyAudit.Console.Output
import KeyAudit.Count
import KeyAudit.Environment

/-!
# Faults

Most of what goes wrong becomes the outcome of a command. A `Fault` is what does
not: it leaves the program.
-/

namespace KeyAudit

/-- What may leave the program as an error. -/
inductive Fault
  | inaccessible (error : AccessError)
  | unlistable (directory : Unlistable)
  | home (error : HomeError)
  | notIterable (kind : Setting.Scalar)
  | load (error : LoadError)
  | unwritable (error : Console.WriteError)
  | unknownKind (value : Json)
  | notPath (value : Json)
  | noResult

/-- The text about a directory that could not be listed, for a given reason. -/
def unlistableMessage (directory reason : Text) : Text :=
  let message := "Could not open directory " ++ directory ++ "."
  if reason = "" then message else message ++ " (" ++ reason ++ ")"

/-- The reason in short. -/
def AccessError.reason : AccessError → Text
  | .refused errno _ => errno.message
  | error => error.message

/-- The wording of a fault. -/
def Fault.message : Fault → Text
  | .inaccessible error => error.message
  | .unlistable directory =>
    unlistableMessage directory.path.toText directory.error.reason
  | .home error => error.message
  | .notIterable kind => kind.message
  | .load error => error.message
  | .unwritable error => error.message
  | .unknownKind value => value.literal ++ " is not a valid FindingKind"
  | .notPath value => "expected str, bytes or os.PathLike object, not " ++ value.kindName
  | .noResult => "progress_callback must set result.result to a non-empty string"

/-- The error that ends a count. -/
def CountError.toFault : CountError → Fault
  | .unlistable directory => .unlistable directory
  | .inaccessible error => .inaccessible error

end KeyAudit
