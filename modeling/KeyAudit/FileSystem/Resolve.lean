import KeyAudit.FileSystem.Basic

/-!
# Where paths lead

A path is followed name by name from the place where it starts. Every name is
looked up in a directory that may be searched, `..` leads to the directory that
holds it, and a symbolic link is replaced by its target.

* `resolve` follows a path as the operating system does: every name on the way
  has to exist, and at most `linkLimit` links are followed;
* `fullPath` follows the links of a path as far as they lead somewhere and takes
  what does not exist by its name;
* `realPath_of_resolve`: for a path that resolves both agree.
-/

namespace KeyAudit

namespace FileSystem

/-- How many links are followed on the way of one path. -/
def linkLimit : Nat := 40

/-- How many octets a name may have. -/
def nameLimit : Nat := 255

/-- How many octets a path may have. -/
def pathLimit : Nat := 4095

/-- Where a path starts. -/
def start (fs : FileSystem) : Anchor → Location
  | .workingDirectory => fs.workingDirectory
  | _ => []

/-- The names in the target of a link. A slash at the end asks for a directory,
    like the name `.`. -/
def targetNames (target : Text) : List Text :=
  let names := (Path.pieces target).filter (· ≠ [])
  if target.getLast? = some '/' then names ++ [Text.ofString "."] else names

/-- Where the target of a link that is held by a directory starts. -/
def targetStart (directory : Location) (target : Text) : Location :=
  match Path.anchorOf target with
  | .workingDirectory => directory
  | _ => []

/-- Whether names are looked up at a location: there is a directory, which may be
    searched. -/
def admits (fs : FileSystem) (l : Location) : Bool :=
  fs.hasDirectory l && !fs.denied.contains (.search, l)

/-- Why names are not looked up at a location. -/
def barrier (fs : FileSystem) (l : Location) : Errno :=
  if fs.hasDirectory l then .permissionDenied else .notDirectory

theorem admits_iff {fs : FileSystem} {l : Location} :
    fs.admits l = true ↔ fs.hasDirectory l = true ∧ (Access.search, l) ∉ fs.denied := by
  simp [admits]

theorem hasDirectory_of_admits {fs : FileSystem} {l : Location} (h : fs.admits l = true) :
    fs.hasDirectory l = true :=
  (admits_iff.1 h).1

/-- Follows names from a location, and at most `budget` links. -/
def follow (fs : FileSystem) (budget : Nat) (here : Location) :
    List Text → Except Errno Location
  | [] => .ok here
  | name :: rest =>
    if !fs.admits here then .error (fs.barrier here)
    else if name = "." then follow fs budget here rest
    else if name = ".." then follow fs budget here.tail rest
    else if FileName.size name > nameLimit then .error .nameTooLong
    else
      let there := FileName.canonical name :: here
      match fs.node? there with
      | none => .error .noEntry
      | some (.link target) =>
        match budget with
        | 0 => .error .linkLoop
        | budget + 1 =>
          follow fs budget (targetStart here target) (targetNames target ++ rest)
      | some _ => follow fs budget there rest
termination_by names => (budget, names.length)

/-- The location that a path leads to. -/
def resolve (fs : FileSystem) (p : Path) : Except Errno Location :=
  if FileName.size p.toText > pathLimit then .error .nameTooLong
  else follow fs linkLimit (fs.start p.anchor) p.names

/-- Follows a name without a look at the file system. -/
def enter (here : Location) (name : Text) : Location :=
  if name = "" ∨ name = "." then here
  else if name = ".." then here.tail
  else FileName.canonical name :: here

/-- Follows names without a look at the file system. -/
def descend (here : Location) (names : List Text) : Location :=
  names.foldl enter here

/-- The absolute path of a location. -/
def pathOf (l : Location) : Path := ⟨.top, l.reverse⟩

end FileSystem

/-- How a place has been reached whose links are all followed: from the top or from
    the working directory, by the names on the way, last first. A trail out of the
    working directory begins with `..`, once for every directory that it leaves.

    Several trails may reach one place, as the directories that a trail leaves
    can be entered again. -/
structure Trail where
  fromTop : Bool
  names : List Text
deriving Repr, DecidableEq

namespace Trail

/-- The trail to where a path starts. -/
def start : Anchor → Trail
  | .workingDirectory => ⟨false, []⟩
  | _ => ⟨true, []⟩

/-- The trail to an entry of the directory at the end of a trail. -/
def enter (t : Trail) (name : Text) : Trail := { t with names := name :: t.names }

/-- The trail to the directory that holds the end of a trail. -/
def leave (t : Trail) : Trail :=
  if t.fromTop then { t with names := t.names.tail }
  else match t.names with
    | [] => t.enter ".."
    | name :: names => if name = ".." then t.enter ".." else { t with names := names }

/-- The trail to where the target of a link starts that is held by the directory at
    the end of a trail. -/
def before (t : Trail) (target : Text) : Trail :=
  match Path.anchorOf target with
  | .workingDirectory => t
  | anchor => start anchor

/-- The location at the end of a trail. -/
def location (fs : FileSystem) (t : Trail) : Location :=
  FileSystem.descend (if t.fromTop then [] else fs.workingDirectory) t.names.reverse

/-- Whether names are looked up in all directories on the way of a trail. -/
def isOpen (fs : FileSystem) (fromTop : Bool) : List Text → Bool
  | [] => true
  | _ :: names => fs.admits (location fs ⟨fromTop, names⟩) && isOpen fs fromTop names

/-- What there is at the end of a trail, as far as it is seen. -/
def node? (fs : FileSystem) (t : Trail) : Option Node :=
  if isOpen fs t.fromTop t.names then fs.node? (t.location fs) else none

end Trail

/-- What following a trail comes to: the links that have been met, those that have
    been followed with where they lead, and the place at the end. If a link leads
    back to itself, that is an error, with the path of the link and of what comes
    after it by name. -/
structure Chase where
  met : List (Trail × Option Trail)
  outcome : Except Path Trail

namespace FileSystem

/-- How deep links are followed that are met on the way of other links. -/
def nestingLimit : Nat := 1000

/-- Goes on by name from an absolute path. Names with an empty one in front of them
    are those of a path from the top. -/
def descendFrom (here : Path) (names : List Text) : Path :=
  match Path.anchorOf (Text.join "/" names) with
  | .workingDirectory => ⟨here.anchor, (descend here.names.reverse names).reverse⟩
  | anchor => ⟨anchor, (descend [] names).reverse⟩

/-- Follows names, and the links that they lead to, as far as these lead somewhere.
    The links of `met` have been met before; one that is still being followed
    leads back to itself. -/
def chase (fs : FileSystem) (depth : Nat) (met : List (Trail × Option Trail)) (here : Trail) :
    List Text → Chase
  | [] => ⟨met, .ok here⟩
  | name :: rest =>
    if name = "" ∨ name = "." then chase fs depth met here rest
    else if name = ".." then chase fs depth met here.leave rest
    else
      let next := here.enter name
      let circle : Chase := ⟨met, .error (descendFrom (pathOf (next.location fs)) rest)⟩
      match next.node? fs with
      | some (.link target) =>
        match met.lookup next with
        | some (some there) => chase fs depth met there rest
        | some none => circle
        | none =>
          match depth with
          | 0 => circle
          | deeper + 1 =>
            let pieces := Path.pieces target
            match chase fs deeper ((next, none) :: met) (here.before target) pieces with
            | ⟨met, .ok there⟩ => chase fs (deeper + 1) ((next, some there) :: met) there rest
            | ⟨met, .error p⟩ => ⟨met, .error (descendFrom p rest)⟩
      | _ => chase fs depth met next rest
termination_by names => (depth, names.length)

/-- The absolute path that a path stands for: of where it leads to if it resolves,
    otherwise of where its links lead as far as they lead somewhere. -/
def fullPath (fs : FileSystem) (p : Path) : Path :=
  match fs.resolve p with
  | .ok l => pathOf l
  | .error _ =>
    match (chase fs nestingLimit [] (Trail.start p.anchor) p.names).outcome with
    | .ok there => pathOf (there.location fs)
    | .error q => q

/-- The location that a path stands for. -/
def realPath (fs : FileSystem) (p : Path) : Location := (fs.fullPath p).names.reverse

/-- A path that resolves stands for where it leads to. -/
theorem realPath_of_resolve {fs : FileSystem} {p : Path} {l : Location}
    (h : fs.resolve p = .ok l) : fs.realPath p = l := by
  simp [realPath, fullPath, h, pathOf]

end FileSystem

end KeyAudit
