import KeyAudit.CommandLine.Session
import KeyAudit.Log.Time

/-!
# The program on a machine

The program works on a picture of the file system. The picture is taken before it
runs and holds what its command line is about: the paths that are named, with the
way to them, and everything in the project. The log files that change are written
back afterwards.
-/

namespace KeyAudit

/-- A picture of a part of a file system, and the directories that are in it with
    all their entries. -/
structure Picture where
  fs : FileSystem
  complete : List Location

/-- A text as the machine takes it, which has no halves of surrogate pairs. -/
def machineText (s : Text) : String := String.ofList (Text.characters s)

namespace Picture

/-- The place of a location on the machine. -/
def place (l : Location) := (⟨"/", machineText (FileSystem.pathOf l).toText⟩ : IO.FS.DirEntry).path

/-- The target of a link whose end cannot be found: a name that no entry has. -/
def nowhere : Text := "\x00"

/-- Takes in the node at a location. What a link leads to is asked for, not how. In a
    directory that may not be searched it is a file, as far as one knows. -/
def takeNode (picture : Picture) (l : Location) : IO Picture := do
  if (picture.fs.node? l).isSome then return picture
  let take := fun n => { picture with fs := picture.fs.put l n }
  match ← (place l).symlinkMetadata.toBaseIO with
  | .error (.permissionDenied ..) =>
    let picture := take (.file ByteArray.empty)
    return { picture with fs := picture.fs.deny .search (FileSystem.pathOf l.tail) }
  | .error _ => return picture
  | .ok data =>
    match data.type with
    | .dir => return take .directory
    | .symlink =>
      match ← (IO.FS.realPath (place l)).toBaseIO with
      | .ok target => return take (.link target.toString)
      | .error _ => return take (.link nowhere)
    | _ =>
      match ← (IO.FS.readBinFile (place l)).toBaseIO with
      | .ok content => return take (.file content)
      | .error _ =>
        let picture := take (.file ByteArray.empty)
        return { picture with fs := picture.fs.deny .read (FileSystem.pathOf l) }

mutual

/-- Takes in what names lead to from a location, with everything below it if it is
    to be a `whole` directory. -/
partial def follow (whole : Bool) (picture : Picture) (here : Location) :
    List Text → IO Picture
  | [] => if whole then takeWhole picture here else return picture
  | name :: rest => do
    if name = "." then return ← picture.follow whole here rest
    if name = ".." then return ← picture.follow whole here.tail rest
    let there := FileName.canonical name :: here
    let picture ← picture.takeNode there
    match picture.fs.node? there with
    | none => return picture
    | some (.link target) =>
      picture.follow whole (FileSystem.targetStart here target)
        (FileSystem.targetNames target ++ rest)
    | some _ => picture.follow whole there rest

/-- Takes in all entries of the directory at a location, and what is below them. -/
partial def takeWhole (picture : Picture) (l : Location) : IO Picture := do
  if picture.complete.contains l || !picture.fs.hasDirectory l then return picture
  let picture := { picture with complete := l :: picture.complete }
  match ← (place l).readDir.toBaseIO with
  | .ok entries =>
    entries.foldlM (fun picture entry => picture.follow true l [entry.fileName]) picture
  | .error _ => return { picture with fs := picture.fs.deny .list (FileSystem.pathOf l) }

end

/-- Takes in what a path leads to. -/
def takePath (picture : Picture) (p : Path) (whole : Bool) : IO Picture :=
  picture.follow whole (picture.fs.start p.anchor) p.names

/-- Takes in what an audit is about. -/
def takeAudit (picture : Picture) (source project : Path) : IO Picture := do
  (← picture.takePath source false).takePath project true

/-- Takes in what a request is about. -/
def takeRequest (picture : Picture) (env : Environment) : CommandLine.Request → IO Picture
  | .check _ arguments =>
    match env.expandUser (Path.ofText arguments.source),
      env.expandUser (Path.ofText arguments.project) with
    | .ok source, .ok project => picture.takeAudit source project
    | _, _ => return picture
  | .run _ file =>
    match env.expandUser (Path.ofText file) with
    | .error _ => return picture
    | .ok file => do
      let picture ← picture.takePath file false
      match Config.load picture.fs file with
      | .ok config => picture.takeAudit config.source config.project
      | .error _ => return picture
  | _ => return picture

/-- Takes in the log files in the directory of the program. -/
def takeLogs (picture : Picture) (env : Environment) : IO Picture := do
  let picture ←
    match env.value? Environment.homeVariable with
    | some home =>
      match env.expandUser (Path.ofText home) with
      | .ok directory => picture.takePath directory false
      | .error _ => pure picture
    | none => pure picture
  match env.programHome picture.fs with
  | .error _ => return picture
  | .ok home =>
    let file := home.child Logging.fileName
    (file :: (List.range Handler.olderFiles).map fun n => Handler.older file (n + 1)).foldlM
      (fun picture file => picture.takePath file false) picture

end Picture

/-- The home directories of the accounts of a machine, from the text of its list:
    on every line, between colons, the name comes first and the directory sixth. -/
def accountHomes (text : Text) : List (Text × Text) :=
  (linesOf text).filterMap fun line =>
    match Text.splitOn ':' line with
    | name :: _ :: _ :: _ :: _ :: home :: _ => some (name, home)
    | _ => none

/-- The environment of the user. -/
def readEnvironment : IO Environment := do
  let names := [Environment.userVariable, Environment.homeVariable]
  let assignments : List (Text × Text) ← names.filterMapM fun name => do
    return (← IO.getEnv (machineText name)).map fun value => (name, Text.ofString value)
  let accounts :=
    match ← (IO.FS.readFile "/etc/passwd").toBaseIO with
    | .ok text => accountHomes text
    | .error _ => []
  let user := (← IO.getEnv "USER").getD "root"
  return ⟨assignments, (accounts.lookup (Text.ofString user)).getD "/", accounts⟩

/-- The time stamp of now: the machine tells the time by dating a new file. -/
def now : IO String := do
  let (_, file) ← IO.FS.createTempFile
  let date := (← file.metadata).modified
  IO.FS.removeFile file
  return Time.stamp date.sec.toNat (date.nsec.toNat / 1000000)

/-- Writes the log files that have changed. -/
def writeLogs (before after : Host) : IO Unit :=
  for file in after.logging.handlers.map Handler.file do
    for p in file :: (List.range Handler.olderFiles).map fun n => Handler.older file (n + 1) do
      match (before.fs.content p).toOption, (after.fs.content p).toOption with
      | old, some new =>
        if old.map ByteArray.data != some new.data then
          IO.FS.createDirAll (machineText p.parent.toText)
          IO.FS.writeBinFile (machineText p.toText) new
      | _, none => pure ()

end KeyAudit

open KeyAudit in
/-- Runs the program with the arguments of its command line. -/
def main (arguments : List String) : IO UInt32 := do
  let args := arguments.map Text.ofString
  let env ← readEnvironment
  let here := (Path.ofText (← IO.currentDir).toString).names
  let picture ← Picture.takePath ⟨FileSystem.empty here, []⟩ ⟨.top, here⟩ false
  let picture ← picture.takeLogs env
  let picture ←
    match CommandLine.Request.ofLine args with
    | .ok request => picture.takeRequest env request
    | .error _ => pure picture
  let host : Host := ⟨picture.fs, env, Logging.initial, ← now⟩
  let version := Version.lookUp true none
  let (after, transcript) := CommandLine.runProgram version host args
  writeLogs host after
  IO.print transcript.out
  IO.eprint transcript.err
  match transcript.ending with
  | .ok code => return code.toUInt32
  | .error fault =>
    IO.eprintln (machineText fault.message)
    return 1
