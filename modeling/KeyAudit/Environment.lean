import KeyAudit.Assignment
import KeyAudit.FileSystem.Read
import KeyAudit.Text.Blank

/-!
# The environment of a user

The variables that a user has set, the home directories of the accounts, and what
is found through them: the directory that `~` stands for at the start of a path,
and the directory in which the program keeps its log.
-/

namespace KeyAudit

/-- What a user has set up. -/
structure Environment where
  /-- The variables that are set, with their values, which are spelled like the names
      of files. -/
  assignments : List (Text × Text)
  /-- The home directory of the user's own account. -/
  accountHome : Text
  /-- The home directories of the accounts by their names. -/
  accounts : List (Text × Text)
deriving Repr

/-- Why a directory of a user is not found. -/
inductive HomeError
  /-- There is no such account. -/
  | unknownAccount
  /-- No account can have the name. -/
  | unusable (error : AccessError)
  /-- The path leads around in a circle. -/
  | linkCycle (path : Text)
deriving Repr, DecidableEq

/-- The wording of an error. -/
def HomeError.message : HomeError → Text
  | .unknownAccount => "Could not determine home directory."
  | .unusable error => error.message
  | .linkCycle path => "Symlink loop from " ++ Text.quoted path

namespace Environment

/-- The environment in which a variable is set. -/
def set (env : Environment) (name value : Text) : Environment :=
  { env with assignments := assign name (FileName.canonical value) env.assignments }

/-- The environment in which a variable is not set. -/
def unset (env : Environment) (name : Text) : Environment :=
  { env with assignments := env.assignments.filter fun v => v.1 ≠ name }

/-- The value of a variable that is set and not empty. -/
def value? (env : Environment) (name : Text) : Option Text :=
  (env.assignments.lookup name).filter (· ≠ [])

/-- The name of the variable that holds the directory of the user. -/
def userVariable : Text := "HOME"

/-- A directory without slashes at its end; the top if nothing is left. -/
def withoutSlashes (directory : Text) : Text :=
  match Text.trimEndBy (· = '/') directory with
  | [] => "/"
  | s => s

/-- What the name `~` or `~account` stands for. -/
def homeOf? (env : Environment) (account : Text) : Option Text :=
  let home? :=
    if account.isEmpty then some ((env.assignments.lookup userVariable).getD env.accountHome)
    else env.accounts.lookup account
  (home?.map withoutSlashes).filter fun home => home.head? ≠ some '~'

/-- Replaces a `~` at the start of a path. -/
def expandUser (env : Environment) (p : Path) : Except HomeError Path :=
  match p.anchor, p.names with
  | .workingDirectory, name :: rest =>
    match name with
    | .char '~' :: account =>
      match unusable? account, env.homeOf? account with
      | some error, _ => .error (.unusable error)
      | none, some home => .ok ((Path.ofText home).join ⟨.workingDirectory, rest⟩)
      | none, none => .error .unknownAccount
    | _ => .ok p
  | _, _ => .ok p

/-- The name of the variable that holds the directory of the program. -/
def homeVariable : Text := "LOCHECK_HOME"

/-- The name of the directory of the program within that of the user. -/
def homeName : Text := ".locheck"

/-- The absolute path of what a path leads to, as far as its links lead
    somewhere. -/
def absolute (fs : FileSystem) (p : Path) : Except HomeError Path :=
  let q := fs.fullPath p
  match fs.resolve q with
  | .error .linkLoop => .error (.linkCycle q.toText)
  | _ => .ok q

/-- The directory of the program. -/
def programHome (env : Environment) (fs : FileSystem) : Except HomeError Path :=
  match env.value? homeVariable with
  | some home =>
    match env.expandUser (Path.ofText home) with
    | .ok p => absolute fs p
    | .error error => .error error
  | none =>
    match env.value? userVariable with
    | some home => .ok ((Path.ofText home).child homeName)
    | none =>
      match env.expandUser (Path.ofText "~") with
      | .ok p => .ok (p.child homeName)
      | .error error => .error error

/-- A path within the directory of the program. -/
def homePath (env : Environment) (fs : FileSystem) (parts : List Text) :
    Except HomeError Path :=
  match env.programHome fs with
  | .ok home =>
    .ok (home.join (parts.foldl (fun p part => p.join (Path.ofText part))
      ⟨.workingDirectory, []⟩))
  | .error error => .error error

end Environment

end KeyAudit
