import KeyAudit.FileSystem.Read

/-!
# Changing a file system

Directories, files and links are made, replaced and removed. A file is written
at the place that its path leads to, so writing to a link that leads nowhere
makes the file that the link asks for. New nodes come last in their directories.
-/

namespace KeyAudit

namespace FileSystem

/-- The file system with nothing in it but the way to a working directory. -/
def empty (workingDirectory : List Text) : FileSystem where
  nodes := []
  denied := []
  workingDirectory := (workingDirectory.map FileName.canonical).reverse
  distinct := List.nodup_nil
  named := fun _ h => absurd h List.not_mem_nil

/-- Replaces the node at a location. -/
def replaceNode (l : Location) (n : Node) (m : Location × Node) : Location × Node :=
  if m.1 = l then (l, n) else m

theorem map_fst_replaceNode (l : Location) (n : Node) (ms : List (Location × Node)) :
    (ms.map (replaceNode l n)).map Prod.fst = ms.map Prod.fst := by
  rw [List.map_map]
  refine List.map_congr_left fun m _ => ?_
  unfold Function.comp replaceNode
  split
  · simp_all
  · rfl

theorem nodup_replaceNode (fs : FileSystem) (l : Location) (n : Node) :
    ((fs.nodes.map (replaceNode l n)).map Prod.fst).Nodup := by
  rw [map_fst_replaceNode]
  exact fs.distinct

/-- Whether there is a node at a location below the top. -/
def occupied (fs : FileSystem) (l : Location) : Bool :=
  (fs.nodes.map Prod.fst).contains l

theorem nodup_append_node {fs : FileSystem} {l : Location} (h : ¬fs.occupied l = true)
    (n : Node) : ((fs.nodes ++ [(l, n)]).map Prod.fst).Nodup := by
  rw [List.map_append, List.nodup_append]
  refine ⟨fs.distinct, by simp, fun a ha b hb hab => h ?_⟩
  have hl : b = l := List.mem_singleton.1 hb
  rw [occupied, List.contains_iff_mem, ← hl, ← hab]
  exact ha

theorem named_append_node {fs : FileSystem} {l : Location}
    (h : ∀ name ∈ l, isNodeName name = true) (n : Node) :
    ∀ k ∈ (fs.nodes ++ [(l, n)]).map Prod.fst, ∀ name ∈ k, isNodeName name = true := by
  intro k hk
  rw [List.map_append, List.mem_append] at hk
  rcases hk with hk | hk
  · exact fs.named k hk
  · rwa [List.mem_singleton.1 hk]

/-- Puts a node at a location, in place of one that is there. Nothing is put where
    no way can lead to it. -/
def put (fs : FileSystem) (l : Location) (n : Node) : FileSystem :=
  if h : fs.occupied l = true then
    { fs with
      nodes := fs.nodes.map (replaceNode l n)
      distinct := nodup_replaceNode fs l n
      named := map_fst_replaceNode l n fs.nodes ▸ fs.named }
  else if hl : ∀ name ∈ l, isNodeName name = true then
    { fs with
      nodes := fs.nodes ++ [(l, n)]
      distinct := nodup_append_node h n
      named := named_append_node hl n }
  else fs

/-- Keeps the nodes at the locations that satisfy a condition. -/
def keep (fs : FileSystem) (kept : Location → Bool) : FileSystem :=
  { fs with
    nodes := fs.nodes.filter fun n => kept n.1
    distinct := fs.distinct.sublist (List.Sublist.map _ List.filter_sublist)
    named := fun l hl => fs.named l ((List.filter_sublist.map Prod.fst).subset hl) }

/-- Denies an access to a path. -/
def deny (fs : FileSystem) (access : Access) (p : Path) : FileSystem :=
  { fs with denied := (access, fs.realPath p) :: fs.denied }

/-- The directory that holds the last name of a path, and that name; a path
    that names no entry of a directory leads to something that exists. -/
def holder (fs : FileSystem) (p : Path) : Except Errno (Location × Text) :=
  match p.names.getLast? with
  | none => .error .fileExists
  | some name =>
    if FileName.size p.toText > pathLimit then .error .nameTooLong
    else match fs.resolve p.parent with
      | .error errno => .error errno
      | .ok directory =>
        if !fs.admits directory then .error (fs.barrier directory)
        else if name = ".." then .error .fileExists
        else if FileName.size name > nameLimit then .error .nameTooLong
        else .ok (directory, FileName.canonical name)

/-- The location at which a path asks for a new node. -/
def freePlace (fs : FileSystem) (p : Path) : Except Errno Location :=
  match fs.holder p with
  | .error errno => .error errno
  | .ok (directory, name) =>
    if (fs.node? (name :: directory)).isSome then .error .fileExists
    else .ok (name :: directory)

/-- Makes a node where there is none. -/
def make (fs : FileSystem) (p : Path) (n : Node) : Except AccessError FileSystem :=
  match p.unusable? with
  | some error => .error error
  | none =>
    match fs.freePlace p with
    | .error errno => .error (.refused errno p.toText)
    | .ok l => .ok (fs.put l n)

/-- Makes a directory, unless there is one. What is in its place is asked for what it
    is, unless there is nothing that could hold the directory. -/
def makeDirectory (fs : FileSystem) (p : Path) : Except AccessError FileSystem :=
  match fs.make p .directory with
  | .ok fs => .ok fs
  | .error (.refused .noEntry path) => .error (.refused .noEntry path)
  | .error error =>
    match fs.askDirectory p with
    | .ok true => .ok fs
    | .ok false => .error error
    | .error refusal => .error refusal

/-- The file system after an attempt, and the error that it ended with, if any. -/
def attempt (fs : FileSystem) : Except AccessError FileSystem → FileSystem × Option AccessError
  | .ok fs => (fs, none)
  | .error error => (fs, some error)

/-- Makes a directory and those that hold it, unless they exist. The number of
    the names of the path bounds the directories to make. Those that have been made
    before an error stay. -/
def makeDirectoriesUpTo (fs : FileSystem) : Nat → Path → FileSystem × Option AccessError
  | 0, p => fs.attempt (fs.makeDirectory p)
  | bound + 1, p =>
    match fs.makeDirectory p with
    | .error (.refused .noEntry path) =>
      if p.names = [] then (fs, some (.refused .noEntry path))
      else match makeDirectoriesUpTo fs bound p.parent with
        | (fs, none) => fs.attempt (fs.makeDirectory p)
        | failed => failed
    | result => fs.attempt result

/-- Makes a directory and those that hold it, unless they exist. -/
def makeDirectories (fs : FileSystem) (p : Path) : FileSystem × Option AccessError :=
  fs.makeDirectoriesUpTo p.names.length p

/-- The location of the file that names lead to, or would make, when at most
    `budget` links are followed at the end. -/
def filePlaceFrom (fs : FileSystem) (here : Location) (names : List Text) :
    (budget : Nat) → Except Errno Location
  | 0 => .error .linkLoop
  | budget + 1 =>
    match names.getLast? with
    | none => .error .isDirectory
    | some name =>
      match fs.follow linkLimit here names.dropLast with
      | .error errno => .error errno
      | .ok directory =>
        if !fs.admits directory then .error (fs.barrier directory)
        else if name = "." ∨ name = ".." then .error .isDirectory
        else if FileName.size name > nameLimit then .error .nameTooLong
        else
          let place := FileName.canonical name :: directory
          match fs.node? place with
          | some .directory => .error .isDirectory
          | some (.link target) =>
            fs.filePlaceFrom (targetStart directory target) (targetNames target) budget
          | _ => .ok place

/-- The location of the file that a path leads to, or would make. -/
def filePlace (fs : FileSystem) (p : Path) : Except AccessError Location :=
  match p.unusable? with
  | some error => .error error
  | none =>
    if fs.denies .read p then .error (.refused .permissionDenied p.toText)
    else if FileName.size p.toText > pathLimit then .error (.refused .nameTooLong p.toText)
    else match fs.filePlaceFrom (fs.start p.anchor) p.names (linkLimit + 1) with
      | .error errno => .error (.refused errno p.toText)
      | .ok l => .ok l

/-- The content of the file at a location, or nothing. -/
def contentAt (fs : FileSystem) (l : Location) : ByteArray :=
  match fs.node? l with
  | some (.file content) => content
  | _ => ByteArray.empty

/-- Writes a file, in place of one that is there. -/
def write (fs : FileSystem) (p : Path) (content : ByteArray) : Except AccessError FileSystem :=
  match fs.filePlace p with
  | .error error => .error error
  | .ok l => .ok (fs.put l (.file content))

/-- The file system without the node at a location and everything below it. -/
def without (fs : FileSystem) (l : Location) : FileSystem :=
  fs.keep fun m => !l.isSuffixOf m

/-- Removes what a path names, with everything below it. A link is removed, and
    not what it leads to. -/
def remove (fs : FileSystem) (p : Path) : Except AccessError FileSystem :=
  match fs.holder p with
  | .error errno => .error (.refused errno p.toText)
  | .ok (directory, name) =>
    if (fs.node? (name :: directory)).isNone then .error (.refused .noEntry p.toText)
    else .ok (fs.without (name :: directory))

/-- Removes the file or the link that a path names. -/
def unlink (fs : FileSystem) (p : Path) : Except Errno FileSystem :=
  match fs.holder p with
  | .error errno => .error errno
  | .ok (directory, name) =>
    match fs.node? (name :: directory) with
    | none => .error .noEntry
    | some .directory => .error .isDirectory
    | some _ => .ok (fs.without (name :: directory))

/-- Where a location below `l` is after the directory at `l` has moved to `m`. -/
def movedTo (l m k : Location) : Location :=
  k.take (k.length - l.length) ++ m

/-- Moves the node at a location, with everything below it, to another location. -/
def moveNode (fs : FileSystem) (l m : Location) : FileSystem :=
  (fs.nodes.filter fun n => l.isSuffixOf n.1).foldl (fun fs n => fs.put (movedTo l m n.1) n.2)
    ((fs.without m).without l)

/-- Gives what a path names another path, in place of a file or a link there. -/
def move (fs : FileSystem) (p q : Path) : Except Errno FileSystem := do
  let (directory, name) ← fs.holder p
  let (directory', name') ← fs.holder q
  let l := name :: directory
  let m := name' :: directory'
  match fs.node? l, fs.node? m with
  | none, _ => .error .noEntry
  | some _, none => return fs.moveNode l m
  | some .directory, some .directory => .error .fileExists
  | some .directory, some _ => .error .notDirectory
  | some _, some .directory => .error .isDirectory
  | some _, some _ => return if l = m then fs else fs.moveNode l m

end FileSystem

end KeyAudit
