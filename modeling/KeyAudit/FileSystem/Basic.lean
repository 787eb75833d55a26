import KeyAudit.FileSystem.Name
import KeyAudit.Path

/-!
# File systems

A file system is a finite set of nodes: files, directories and symbolic links,
each at its own location. The location of a node is the sequence of names on the
way to it from the top, the last name first, so that the tail of a location is
the directory that holds it. Names are spelled as they are listed. A directory
lists its entries in the order in which they were made.

Besides, access to a location may be denied: a directory may not be searched or
listed, a file not be opened, or the kind of a node not be asked for. These are
denied one by one. In a directory that may not be searched nothing can be asked for,
not even whether it is there; that the kind of a node is denied says nothing about
its presence.
-/

namespace KeyAudit

/-- A place in a file system: the names on the way to it from the top, the last
    one first. -/
abbrev Location := List Text

/-- What may be found at a location. -/
inductive Node
  | file (content : ByteArray)
  | directory
  | link (target : Text)

/-- What may be denied at a location. -/
inductive Access
  /-- Looking up names in a directory; no path goes on from one where it is denied. -/
  | search
  /-- Listing the entries of a directory. -/
  | list
  /-- Reading a file. -/
  | read
  /-- Asking of something that is there whether it is a directory. -/
  | kind
deriving Repr, DecidableEq

/-- Why the operating system refuses to do something. -/
inductive Errno
  | noEntry
  | permissionDenied
  | fileExists
  | notDirectory
  | isDirectory
  | nameTooLong
  | linkLoop
deriving Repr, DecidableEq

/-- The number that stands for a reason. -/
def Errno.number : Errno → Nat
  | .noEntry => 2
  | .permissionDenied => 13
  | .fileExists => 17
  | .notDirectory => 20
  | .isDirectory => 21
  | .nameTooLong => 36
  | .linkLoop => 40

/-- The wording of a reason. -/
def Errno.message : Errno → Text
  | .noEntry => "No such file or directory"
  | .permissionDenied => "Permission denied"
  | .fileExists => "File exists"
  | .notDirectory => "Not a directory"
  | .isDirectory => "Is a directory"
  | .nameTooLong => "File name too long"
  | .linkLoop => "Too many levels of symbolic links"

/-- Whether it remains unknown if there is anything at the end of a path, when the path
    is not followed for some reason. -/
def Errno.isInconclusive : Errno → Bool
  | .permissionDenied => true
  | .nameTooLong => true
  | _ => false

/-- Why a path cannot be accessed. -/
inductive AccessError
  /-- The path holds the character that no system call takes. -/
  | embeddedNul
  /-- The path cannot be spelled in octets. -/
  | unencodable (part : Text.Unencodable)
  /-- The operating system refuses. -/
  | refused (errno : Errno) (path : Text)
deriving Repr, DecidableEq

/-- The wording of an error. -/
def AccessError.message : AccessError → Text
  | .embeddedNul => "embedded null byte"
  | .unencodable part => part.message
  | .refused errno path =>
    "[Errno " ++ toString errno.number ++ "] " ++ errno.message ++ ": " ++
      Text.quoted path

/-- Whether the operating system has refused, rather than never been asked. -/
def AccessError.isRefusal : AccessError → Bool
  | .refused .. => true
  | _ => false

/-- Why no system call takes a text as a name, if none does. -/
def unusable? (name : Text) : Option AccessError :=
  match FileName.unencodable? name with
  | some part => some (.unencodable part)
  | none => if name.contains '\x00' then some .embeddedNul else none

theorem unusable?_eq_none_iff {name : Text} :
    unusable? name = none ↔
      FileName.unencodable? name = none ∧ CodePoint.char '\x00' ∉ name := by
  unfold unusable?
  cases FileName.unencodable? name with
  | some part => simp
  | none => simp

/-- A text is taken by system calls if all its code points come from texts that are. -/
theorem unusable?_eq_none_of_forall {s : Text}
    (h : ∀ c ∈ s, ∃ t : Text, unusable? t = none ∧ c ∈ t) : unusable? s = none := by
  refine unusable?_eq_none_iff.2 ⟨?_, fun hn => ?_⟩
  · refine Text.unencodableFrom?_eq_none_iff.2 fun half hh => ?_
    obtain ⟨t, ht, hc⟩ := h _ hh
    exact Text.unencodableFrom?_eq_none_iff.1 (unusable?_eq_none_iff.1 ht).1 half hc
  · obtain ⟨t, ht, hc⟩ := h _ hn
    exact (unusable?_eq_none_iff.1 ht).2 hc

/-- Why no system call takes a path, if none does. -/
def Path.unusable? (p : Path) : Option AccessError :=
  KeyAudit.unusable? p.toText

/-- A system call takes the path of an entry if it takes that of the directory. -/
theorem Path.unusable?_child {p : Path} {name : Text} (hp : p.unusable? = none)
    (hname : KeyAudit.unusable? name = none) : (p.child name).unusable? = none := by
  refine unusable?_eq_none_of_forall fun c hc => ?_
  rcases mem_toText_child hc with hc | rfl | hc
  · exact ⟨p.toText, hp, hc⟩
  · exact ⟨['/'], by decide, List.mem_singleton.2 rfl⟩
  · exact ⟨name, hname, hc⟩

/-- Whether a text may be the name of a node: a system call takes it, it has no slash,
    and it is none of the names that mean something in every directory. -/
def isNodeName (name : Text) : Bool :=
  unusable? name = none && !name.contains '/' && name ≠ "" && name ≠ "." && name ≠ ".."

theorem unusable?_of_isNodeName {name : Text} (h : isNodeName name = true) :
    unusable? name = none := by
  simp only [isNodeName, Bool.and_eq_true, decide_eq_true_eq] at h
  exact h.1.1.1.1

/-- A file system, as seen from a working directory. -/
structure FileSystem where
  /-- The nodes below the top, in the order in which they were made. -/
  nodes : List (Location × Node)
  /-- The accesses that are denied. -/
  denied : List (Access × Location)
  workingDirectory : Location
  /-- There is at most one node at a location. -/
  distinct : (nodes.map Prod.fst).Nodup
  /-- The way to a node goes by names of nodes. -/
  named : ∀ l ∈ nodes.map Prod.fst, ∀ name ∈ l, isNodeName name = true

namespace FileSystem

/-- The node at a location. At the top there is a directory. -/
def node? (fs : FileSystem) (l : Location) : Option Node :=
  if l = [] then some .directory else fs.nodes.lookup l

/-- Whether there is a directory at a location. -/
def hasDirectory (fs : FileSystem) (l : Location) : Bool :=
  match fs.node? l with
  | some .directory => true
  | _ => false

/-- The name of a location within a given directory. -/
def nameIn (directory : Location) : Location → Option Text
  | [] => none
  | name :: parent => if parent = directory then some name else none

/-- The names of the nodes in a directory. -/
def entries (fs : FileSystem) (directory : Location) : List Text :=
  fs.nodes.filterMap fun n => nameIn directory n.1

theorem nameIn_eq_some_iff {directory l : Location} {name : Text} :
    nameIn directory l = some name ↔ l = name :: directory := by
  cases l with
  | nil => simp [nameIn]
  | cons first parent =>
    by_cases h : parent = directory
    · simp [nameIn, h]
    · simp [nameIn, h]

theorem mem_entries {fs : FileSystem} {directory : Location} {name : Text} :
    name ∈ fs.entries directory ↔ name :: directory ∈ fs.nodes.map Prod.fst := by
  simp [entries, nameIn_eq_some_iff]

/-- A directory lists every name once. -/
theorem nodup_entries (fs : FileSystem) (directory : Location) :
    (fs.entries directory).Nodup := by
  refine List.pairwise_filterMap.2 ((List.pairwise_map.1 fs.distinct).imp ?_)
  intro m n hmn a ha b hb hab
  rw [nameIn_eq_some_iff] at ha hb
  exact hmn (by rw [ha, hb, hab])

/-- What is listed are names of nodes. -/
theorem isNodeName_of_mem_entries {fs : FileSystem} {directory : Location} {name : Text}
    (h : name ∈ fs.entries directory) : isNodeName name = true :=
  fs.named _ (mem_entries.1 h) name List.mem_cons_self

/-- The locations of the directories. -/
def directories (fs : FileSystem) : List Location :=
  [] :: (fs.nodes.map Prod.fst).filter fun l => fs.hasDirectory l

theorem mem_of_lookup {fs : FileSystem} {l : Location} {n : Node}
    (h : fs.nodes.lookup l = some n) : l ∈ fs.nodes.map Prod.fst := by
  obtain ⟨before, after, hn, -⟩ := List.lookup_eq_some_iff.1 h
  simp [hn]

theorem mem_directories {fs : FileSystem} {l : Location} (h : fs.hasDirectory l = true) :
    l ∈ fs.directories := by
  by_cases hl : l = []
  · simp [directories, hl]
  · refine List.mem_cons_of_mem _ (List.mem_filter.2 ⟨?_, h⟩)
    unfold hasDirectory node? at h
    rw [if_neg hl] at h
    cases hk : fs.nodes.lookup l with
    | none => simp [hk] at h
    | some n => exact mem_of_lookup hk

end FileSystem

/-- The members of a list that are not among some others; their number bounds
    a search that never returns to where it has been. -/
def remaining {α : Type} [DecidableEq α] (all visited : List α) : Nat :=
  (all.filter fun a => a ∉ visited).length

theorem remaining_cons_le {α : Type} [DecidableEq α] (all visited : List α) (a : α) :
    remaining all (a :: visited) ≤ remaining all visited := by
  unfold remaining
  rw [← List.countP_eq_length_filter, ← List.countP_eq_length_filter]
  exact List.countP_mono_left fun b _ hb => by simp_all

/-- Visiting a new member leaves fewer. -/
theorem remaining_cons_lt {α : Type} [DecidableEq α] {all visited : List α} {a : α}
    (h : a ∈ all) (hv : a ∉ visited) : remaining all (a :: visited) < remaining all visited := by
  induction all with
  | nil => exact absurd h List.not_mem_nil
  | cons b bs ih =>
    unfold remaining at ih ⊢
    by_cases hb : b = a
    · subst hb
      have hle := remaining_cons_le bs visited b
      unfold remaining at hle
      rw [List.filter_cons_of_neg (by simp), List.filter_cons_of_pos (by simpa using hv)]
      exact Nat.lt_succ_of_le hle
    · have hlt := ih ((List.mem_cons.1 h).resolve_left (Ne.symm hb))
      by_cases hbv : b ∈ visited
      · rwa [List.filter_cons_of_neg (by simp [hbv]), List.filter_cons_of_neg (by simp [hbv])]
      · rw [List.filter_cons_of_pos (by simp [hb, hbv]), List.filter_cons_of_pos (by simp [hbv])]
        exact Nat.succ_lt_succ hlt

end KeyAudit
