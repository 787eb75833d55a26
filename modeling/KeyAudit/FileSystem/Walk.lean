import KeyAudit.FileSystem.Read

/-!
# Walking a directory tree

A walk goes through the entries of a directory in the order in which they are
listed, depth first. It yields the files that have one of the given extensions
and, if it is recursive, enters the directories, whatever their extensions. A
directory that is reached by several paths is entered once for each of them,
unless its real location is that of a directory which is being walked: a link
to an ancestor is skipped. So a walk ends, as every directory on the way has
another location (`walkEntries`).

A walk fails at the first directory that cannot be listed. What it has yielded
before is kept, as whoever uses a walk sees its files one at a time.

Directories may lie in one another as deep as they will. That an interpreter has room
for so many calls at a time and no more is not part of a walk; where it matters, the
walks that are too much for an interpreter are a parameter (`Config.IsWithin`).
-/

namespace KeyAudit

/-- A directory that cannot be listed. -/
structure Unlistable where
  path : Path
  error : AccessError
deriving Repr, DecidableEq

/-- What a walk yields, and where it fails. -/
structure Walk where
  files : List Path
  failure : Option Unlistable

namespace Walk

/-- The walk that yields nothing. -/
def nothing : Walk := ⟨[], none⟩

/-- The walk that fails at once. -/
def failed (p : Path) (error : AccessError) : Walk := ⟨[], some ⟨p, error⟩⟩

/-- One more file in front of a walk. -/
def yield (p : Path) (w : Walk) : Walk := ⟨p :: w.files, w.failure⟩

/-- A walk, and another one after it unless it fails. -/
def andThen (w v : Walk) : Walk :=
  match w.failure with
  | some failure => ⟨w.files, some failure⟩
  | none => ⟨w.files ++ v.files, v.failure⟩

@[simp] theorem failure_nothing : nothing.failure = none := rfl

@[simp] theorem files_nothing : nothing.files = [] := rfl

@[simp] theorem failure_failed (p : Path) (error : AccessError) :
    (failed p error).failure = some ⟨p, error⟩ := rfl

@[simp] theorem failure_andThen (w v : Walk) :
    (w.andThen v).failure = w.failure.or v.failure := by
  unfold andThen
  cases w.failure with
  | none => rfl
  | some failure => rfl

theorem files_andThen {w : Walk} (h : w.failure = none) (v : Walk) :
    (w.andThen v).files = w.files ++ v.files := by
  simp [andThen, h]

/-- A walk that fails yields less. -/
theorem files_andThen_sublist (w v : Walk) :
    (w.andThen v).files.Sublist (w.files ++ v.files) := by
  unfold andThen
  cases w.failure with
  | none => exact .refl _
  | some failure => exact List.sublist_append_left _ _

theorem nothing_andThen (w : Walk) : nothing.andThen w = w := rfl

end Walk

/-- What a walk looks for. -/
structure WalkOptions where
  /-- The extensions of files, in lower case; none stands for all. -/
  extensions : List Text
  /-- Whether directories are entered. -/
  recursive : Bool
deriving Repr, DecidableEq

namespace FileSystem

/-- A path that leads to a directory really is the path of one. -/
theorem hasDirectory_realPath {fs : FileSystem} {p : Path} (h : fs.isDirectory p = true) :
    fs.hasDirectory (fs.realPath p) = true := by
  obtain ⟨-, l, hl, hd, -⟩ := isDirectory_iff.1 h
  rw [realPath_of_resolve hl]
  exact hd

/-- Walks the paths of some entries, while the directories at the locations
    `ancestors` are being walked. -/
def walkEntries (fs : FileSystem) (options : WalkOptions) (ancestors : List Location) :
    List Path → Walk
  | [] => .nothing
  | p :: rest =>
    if _hd : fs.isDirectory p = true then
      if _hv : options.recursive = true ∧ fs.realPath p ∉ ancestors then
        match fs.list p with
        | .error error => .failed p error
        | .ok names =>
          (walkEntries fs options (fs.realPath p :: ancestors) (names.map p.child)).andThen
            (walkEntries fs options ancestors rest)
      else walkEntries fs options ancestors rest
    else if p.hasExtension options.extensions then
      (walkEntries fs options ancestors rest).yield p
    else walkEntries fs options ancestors rest
termination_by ps => (remaining fs.directories ancestors, ps.length)
decreasing_by
  · exact Prod.Lex.left _ _
      (remaining_cons_lt (mem_directories (hasDirectory_realPath _hd)) _hv.2)
  all_goals exact Prod.Lex.right _ (by simp)

/-- Walks the directory at the end of a path. -/
def walk (fs : FileSystem) (options : WalkOptions) (root : Path) : Walk :=
  match fs.list root with
  | .error error => .failed root error
  | .ok names => fs.walkEntries options [fs.realPath root] (names.map root.child)

end FileSystem

end KeyAudit
