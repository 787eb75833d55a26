import Mathlib.Data.List.Nodup
import KeyAudit.FileSystem.Walk

/-!
# Walks by their directories

A walk comes to one directory after the other. From a directory (`walkFrom`) it visits
the entries in turn, and what a visit adds (`visit`) is a walk again: from the entry
if that is entered, the entry alone if it is a file that is looked for, or nothing.

* `walk_induction`: what holds of the walk from a directory if it holds of the walks
  from the entries that are entered there, holds of every walk. There is no other
  induction about walks, and this one is where they are seen to end;
* `failure_walkEntries`: a walk fails where the first of its visits does;
* `files_walkEntries`: a walk that does not fail yields what its visits yield, in
  their order.
-/

namespace KeyAudit.FileSystem

variable (fs : FileSystem) (options : WalkOptions)

/-- Walks the directory at the end of a path, which belongs to `ancestors` itself. -/
def walkFrom (ancestors : List Location) (d : Path) : Walk :=
  match fs.list d with
  | .error error => .failed d error
  | .ok names => fs.walkEntries options ancestors (names.map d.child)

/-- Whether a walk enters what is at the end of a path. -/
def Enters (ancestors : List Location) (p : Path) : Prop :=
  options.recursive = true ∧ fs.isDirectory p = true ∧ fs.realPath p ∉ ancestors

instance (ancestors : List Location) (p : Path) : Decidable (fs.Enters options ancestors p) :=
  inferInstanceAs (Decidable (_ ∧ _ ∧ _))

/-- What an entry adds to a walk. -/
def visit (ancestors : List Location) (p : Path) : Walk :=
  if fs.Enters options ancestors p then fs.walkFrom options (fs.realPath p :: ancestors) p
  else if fs.isDirectory p = false ∧ p.hasExtension options.extensions = true then ⟨[p], none⟩
  else .nothing

variable {fs options} {ancestors : List Location} {d p : Path}

theorem walk_eq_walkFrom (root : Path) :
    fs.walk options root = fs.walkFrom options [fs.realPath root] root := rfl

theorem walkEntries_nil : fs.walkEntries options ancestors [] = .nothing := by
  rw [walkEntries]

theorem visit_of_enters (h : fs.Enters options ancestors p) :
    fs.visit options ancestors p = fs.walkFrom options (fs.realPath p :: ancestors) p :=
  if_pos h

/-- A file that is looked for is all that its visit yields. -/
theorem visit_of_file (hp : fs.isDirectory p = false)
    (he : p.hasExtension options.extensions = true) :
    fs.visit options ancestors p = ⟨[p], none⟩ :=
  (if_neg fun h => Bool.false_ne_true (hp.symm.trans h.2.1)).trans (if_pos ⟨hp, he⟩)

theorem visit_of_neither (h : ¬fs.Enters options ancestors p)
    (hp : fs.isDirectory p = true ∨ p.hasExtension options.extensions = false) :
    fs.visit options ancestors p = .nothing :=
  (if_neg h).trans (if_neg fun hf => by rcases hp with hp | hp <;> simp [hp] at hf)

/-- Only what is entered makes a walk fail. -/
theorem enters_of_failure_visit {u : Unlistable}
    (h : (fs.visit options ancestors p).failure = some u) : fs.Enters options ancestors p := by
  by_contra he
  rw [visit, if_neg he] at h
  split at h <;> cases h

/-- What a visit yields comes from the walk that it begins, or is the entry itself. -/
theorem mem_files_visit {q : Path} (h : q ∈ (fs.visit options ancestors p).files) :
    (fs.Enters options ancestors p ∧
        q ∈ (fs.walkFrom options (fs.realPath p :: ancestors) p).files) ∨
      (q = p ∧ fs.isDirectory p = false ∧ p.hasExtension options.extensions = true) := by
  by_cases he : fs.Enters options ancestors p
  · rw [visit_of_enters he] at h
    exact .inl ⟨he, h⟩
  · rw [visit, if_neg he] at h
    split at h
    · exact .inr ⟨List.mem_singleton.1 h, ‹_›⟩
    · exact absurd h List.not_mem_nil

/-- A walk visits the first entry, and then the others. -/
theorem walkEntries_cons (rest : List Path) :
    fs.walkEntries options ancestors (p :: rest) =
      (fs.visit options ancestors p).andThen (fs.walkEntries options ancestors rest) := by
  rw [walkEntries]
  by_cases hd : fs.isDirectory p = true
  · rw [dif_pos hd]
    by_cases hv : options.recursive = true ∧ fs.realPath p ∉ ancestors
    · rw [dif_pos hv, visit_of_enters ⟨hv.1, hd, hv.2⟩, walkFrom]
      cases fs.list p with
      | error error => rfl
      | ok names => rfl
    · rw [dif_neg hv, visit_of_neither (fun h => hv ⟨h.1, h.2.2⟩) (.inl hd), Walk.nothing_andThen]
  · -- What is no directory is yielded or left out, as its visit has it.
    rw [dif_neg hd]
    by_cases he : p.hasExtension options.extensions = true
    · rw [if_pos he, visit_of_file (by simpa using hd) he]
      rfl
    · rw [if_neg he, visit_of_neither (fun h => hd h.2.1) (.inr (by simpa using he)),
        Walk.nothing_andThen]

variable (fs options) in
/-- To prove something of the walks from all directories, it may be assumed of the
    walks from the entries that are entered. -/
theorem walk_induction {motive : List Location → Path → Prop}
    (step : ∀ ancestors d,
      (∀ names, fs.list d = .ok names → ∀ name ∈ names, fs.Enters options ancestors (d.child name) →
        motive (fs.realPath (d.child name) :: ancestors) (d.child name)) → motive ancestors d)
    (ancestors : List Location) (d : Path) : motive ancestors d := by
  -- Every directory that is entered is a new one among those of the file system.
  induction h : remaining fs.directories ancestors using Nat.strongRecOn
    generalizing ancestors d with
  | ind n ih =>
    refine step ancestors d fun names _ name _ he => ?_
    have hlt := remaining_cons_lt (mem_directories (hasDirectory_realPath he.2.1)) he.2.2
    exact ih _ (h ▸ hlt) _ _ rfl

/-! ## What visits add up to -/

/-- A walk fails where the first of its visits does. -/
theorem failure_walkEntries (ps : List Path) :
    (fs.walkEntries options ancestors ps).failure =
      ps.findSome? fun p => (fs.visit options ancestors p).failure := by
  induction ps with
  | nil => rw [walkEntries_nil, Walk.failure_nothing, List.findSome?_nil]
  | cons p rest ih =>
    rw [walkEntries_cons, Walk.failure_andThen, ih, List.findSome?_cons]
    cases (fs.visit options ancestors p).failure with
    | none => rfl
    | some failure => rfl

/-- A walk yields at most what its visits yield. -/
theorem files_walkEntries_sublist (ps : List Path) :
    (fs.walkEntries options ancestors ps).files.Sublist
      (ps.flatMap fun p => (fs.visit options ancestors p).files) := by
  induction ps with
  | nil => rw [walkEntries_nil, Walk.files_nothing]; exact List.nil_sublist _
  | cons p rest ih =>
    rw [walkEntries_cons, List.flatMap_cons]
    exact (Walk.files_andThen_sublist _ _).trans (ih.append_left _)

/-- A walk that does not fail yields what its visits yield. -/
theorem files_walkEntries {ps : List Path}
    (h : (fs.walkEntries options ancestors ps).failure = none) :
    (fs.walkEntries options ancestors ps).files =
      ps.flatMap fun p => (fs.visit options ancestors p).files := by
  induction ps with
  | nil => rw [walkEntries_nil]; rfl
  | cons p rest ih =>
    rw [walkEntries_cons] at h ⊢
    rw [Walk.failure_andThen, Option.or_eq_none_iff] at h
    rw [Walk.files_andThen h.1, ih h.2, List.flatMap_cons]

/-! ## Walks from a directory -/

theorem walkFrom_of_list {names : List Text} (h : fs.list d = .ok names) :
    fs.walkFrom options ancestors d =
      fs.walkEntries options ancestors (names.map d.child) := by
  rw [walkFrom, h]

theorem walkFrom_of_error {error : AccessError} (h : fs.list d = .error error) :
    fs.walkFrom options ancestors d = .failed d error := by
  rw [walkFrom, h]

/-- A walk that does not fail has listed the directory where it began, and no visit
    there fails. -/
theorem walkFrom_of_failure_eq_none (h : (fs.walkFrom options ancestors d).failure = none) :
    ∃ names, fs.list d = .ok names ∧
      (∀ name ∈ names, (fs.visit options ancestors (d.child name)).failure = none) ∧
      (fs.walkFrom options ancestors d).files =
        names.flatMap fun name => (fs.visit options ancestors (d.child name)).files := by
  cases hl : fs.list d with
  | error error => rw [walkFrom_of_error hl] at h; cases h
  | ok names =>
    rw [walkFrom_of_list hl] at h ⊢
    refine ⟨names, rfl, fun name hn => ?_, by rw [files_walkEntries h, List.flatMap_map]⟩
    rw [failure_walkEntries, List.findSome?_eq_none_iff] at h
    exact h _ (List.mem_map_of_mem hn)

end KeyAudit.FileSystem
