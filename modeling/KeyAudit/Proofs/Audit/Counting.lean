import KeyAudit.Audit.Check
import KeyAudit.Proofs.Walk.Chain

/-!
# Counts without a method

In a file system that does not change, keys are counted in the same lines however they
are counted: those of the files of a walk, one after the other (`walkedLines`). Nothing
but a walk that fails keeps them from being counted, as a file that cannot be read has
no lines (`linesAt`).

* `outcome_occurrences` and `outcome_build`: both ways to count end in the number of
  these lines that hold a key, if the walk does not fail;
* `outcome_fold_of_failure`: both fail with the walk;
* `Config.outcome_count`: an audit counts a key on `Config.hits` many lines, whichever
  method it uses.
-/

namespace KeyAudit

namespace FileSystem

variable (fs : FileSystem)

/-- The lines of a file; one whose text cannot be had has none. -/
def linesAt (p : Path) : List Text :=
  match fs.text p with
  | .ok text => linesOf text
  | .error _ => []

/-- The lines of the files that a walk yields, one file after the other. -/
def walkedLines (options : WalkOptions) (root : Path) : List Text :=
  (fs.walk options root).files.flatMap fs.linesAt

/-- The entries that the lines of a file hold. -/
def entriesAt (detect : Bool) (p : Path) : List Entry :=
  (fs.linesAt p).filterMap fun line => Entry.ofLine? detect line

variable {fs} {options : WalkOptions} {root p : Path} {α : Type}

/-! ## Lines -/

/-- Whether its text can be had or not, a file has lines, if a system call takes its
    path. -/
theorem outcome_lines (hp : p.unusable? = none) : (fs.lines p).outcome = .ok (fs.linesAt p) := by
  rw [lines, linesAt]
  cases ht : fs.text p with
  | ok text => rfl
  | error error =>
    cases error with
    | undecodable fault => rfl
    | inaccessible error => simp only [isRefusal_of_text hp ht, if_true]

theorem outcome_resourceEntries (hp : p.unusable? = none) (detect : Bool) :
    (fs.resourceEntries detect p).outcome = .ok (fs.entriesAt detect p) := by
  rw [resourceEntries, Logged.outcome_bind, outcome_lines hp]
  rfl

theorem entriesAt_eq_map (fs : FileSystem) (detect : Bool) (p : Path) :
    fs.entriesAt detect p = (fs.entriesAt true p).map fun e =>
      { e with hasEmptyValue := detect && e.hasEmptyValue } := by
  rw [entriesAt, entriesAt, List.map_filterMap]
  exact List.filterMap_congr fun line _ => Entry.ofLine?_eq_map detect line

/-! ## Walks whose files are read -/

/-- Reading the files of a walk does not change how it ends. -/
theorem outcome_go {w : Walk} {step : α → List Text → α} {ps : List Path} (a : α)
    (hps : ∀ p ∈ ps, p.unusable? = none) :
    (Walk.fold.go w step ps fs a).outcome =
      (Walk.fold.go w step [] fs (ps.foldl (fun a p => step a (fs.linesAt p)) a)).outcome := by
  induction ps generalizing a with
  | nil => rfl
  | cons p ps ih =>
    -- Logging that a file cannot be read does not change the file system.
    have hp : (fs.lines p).outcome = .ok (fs.linesAt p) :=
      outcome_lines (hps p List.mem_cons_self)
    rw [List.foldl_cons, ← ih _ fun q hq => hps q (List.mem_cons_of_mem _ hq), Walk.fold.go,
      Scene.files_fileSystem, Logged.eq_mk hp]
    rfl

/-- A walk that does not fail hands on the lines of all its files. -/
theorem outcome_fold_of_complete {step : α → List Text → α} {a : α}
    (hw : (fs.walk options root).failure = none) :
    ((fs.walk options root).fold fs step a).outcome =
      .ok ((fs.walk options root).files.foldl (fun a p => step a (fs.linesAt p)) a) := by
  rw [Walk.fold, outcome_go a fun p hp => unusable?_of_mem_files_walk hp, Walk.fold.go, hw]

/-- Whoever reads the files of a walk that is refused fails with it. -/
theorem outcome_fold_of_failure {step : α → List Text → α} {a : α} {u : Unlistable}
    (hroot : root.unusable? = none) (hw : (fs.walk options root).failure = some u) :
    ((fs.walk options root).fold fs step a).outcome = .error (.unlistable u) := by
  rw [Walk.fold, outcome_go a fun p hp => unusable?_of_mem_files_walk hp, Walk.fold.go, hw]
  simp only [isRefusal_of_failure hroot hw, if_true]

/-- Reading the files of a walk that fails comes to no result. -/
theorem outcome_fold_ne_ok {step : α → List Text → α} {a b : α} {u : Unlistable}
    (hw : (fs.walk options root).failure = some u) :
    ((fs.walk options root).fold fs step a).outcome ≠ .ok b := by
  rw [Walk.fold, outcome_go a fun p hp => unusable?_of_mem_files_walk hp, Walk.fold.go, hw]
  dsimp only
  split
  · exact fun h => by cases h
  · exact fun h => by cases h

/-! ## Both ways to count -/

/-- Counting file by file is counting in all lines at once. -/
theorem foldl_countIn (key : Text) (lines : Path → List Text) (ps : List Path) (n : Nat) :
    ps.foldl (fun n p => n + countIn key (lines p)) n = n + countIn key (ps.flatMap lines) := by
  induction ps generalizing n with
  | nil => rfl
  | cons p ps ih =>
    rw [List.foldl_cons, ih, List.flatMap_cons, countIn_append, Nat.add_assoc]

/-- The lines of files that are collected one file after the other. -/
theorem foldl_index (lines : Path → List Text) (ps : List Path) (index : LineIndex) :
    ps.foldl (fun index p => ⟨index.lines ++ lines p, index.files + 1⟩) index =
      ⟨index.lines ++ ps.flatMap lines, index.files + ps.length⟩ := by
  induction ps generalizing index with
  | nil => simp
  | cons p ps ih =>
    rw [List.foldl_cons, ih, List.flatMap_cons, List.length_cons, List.append_assoc]
    congr 1
    exact Nat.succ_add_eq_add_succ _ _

theorem outcome_occurrences (hw : (fs.walk options root).failure = none) (key : Text) :
    (occurrences fs options root key).outcome =
      .ok (countIn key (fs.walkedLines options root)) := by
  rw [occurrences, Scene.files_fileSystem, outcome_fold_of_complete hw, foldl_countIn,
    Nat.zero_add]
  rfl

theorem outcome_build (hw : (fs.walk options root).failure = none) :
    (LineIndex.build fs options root).outcome =
      .ok ⟨fs.walkedLines options root, (fs.walk options root).files.length⟩ := by
  rw [LineIndex.build, Scene.files_fileSystem, outcome_fold_of_complete hw, foldl_index,
    List.nil_append, Nat.zero_add]
  rfl

end FileSystem

namespace Config

variable {c : Config} {fs : FileSystem}

/-- The walk through the project. -/
def walk (c : Config) (fs : FileSystem) : Walk := fs.walk c.walkOptions c.project

/-- The number of lines of the project that hold a key. -/
def hits (c : Config) (fs : FileSystem) (key : Text) : Nat :=
  countIn key (fs.walkedLines c.walkOptions c.project)

/-- If the walk through the project does not fail, an audit has a method to count, and
    that it counts every key in the same lines does not depend on the method. -/
theorem outcome_count (hw : (c.walk fs).failure = none) :
    ∃ method, (c.countMethod fs).outcome = .ok method ∧
      ∀ key, (c.count fs method key).outcome = .ok (c.hits fs key) := by
  rw [countMethod]
  split
  · refine ⟨.index ⟨fs.walkedLines c.walkOptions c.project, (c.walk fs).files.length⟩, ?_,
      fun key => rfl⟩
    rw [Logged.outcome_bind, FileSystem.outcome_build hw]
    rfl
  · exact ⟨.search, rfl, fun key => FileSystem.outcome_occurrences hw key⟩

/-- An index of a project whose walk is refused cannot be made. -/
theorem outcome_countMethod_of_failure {u : Unlistable} (hi : c.useIndex = true)
    (hp : c.project.unusable? = none) (hw : (c.walk fs).failure = some u) :
    (c.countMethod fs).outcome = .error (.unlistable u) := by
  have hb : (LineIndex.build fs c.walkOptions c.project).outcome = .error (.unlistable u) :=
    FileSystem.outcome_fold_of_failure hp hw
  rw [countMethod, if_pos hi, Logged.outcome_bind, hb]
  rfl

/-- Without an index, no key of a project whose walk is refused can be counted. -/
theorem outcome_count_of_failure {u : Unlistable} (hp : c.project.unusable? = none)
    (hw : (c.walk fs).failure = some u) (key : Text) :
    (c.count fs .search key).outcome = .error (.unlistable u) :=
  FileSystem.outcome_fold_of_failure hp hw

end Config

end KeyAudit
