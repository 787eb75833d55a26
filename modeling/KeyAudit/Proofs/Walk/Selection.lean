import KeyAudit.Proofs.Walk.Chain

/-!
# What the options of a walk select

The options of a walk do not lead it anywhere else. Extensions decide about files only, at the
very end: a walk with extensions goes like the one without, fails where that fails, and keeps
of its files those that have one of them (`walk_extensions`). A walk that is not recursive
keeps of the files of the recursive one those that the root itself lists
(`walk_not_recursive`); it does not come to the directories where that could fail.

So both selections can be made afterwards (`walk_selects`).
-/

namespace KeyAudit

namespace Path

/-- A path is that of an entry of a directory. -/
def IsEntryOf (p d : Path) : Prop := ∃ name, p = d.child name

theorem isEntryOf_iff {p d : Path} : p.IsEntryOf d ↔ p.names ≠ [] ∧ p.parent = d := by
  constructor
  · rintro ⟨name, rfl⟩
    exact ⟨List.append_ne_nil_of_right_ne_nil _ (List.cons_ne_nil _ _), parent_child d name⟩
  · rintro ⟨hp, rfl⟩
    refine ⟨p.names.getLast hp, ?_⟩
    rw [child, parent, List.dropLast_append_getLast hp]

instance (p d : Path) : Decidable (p.IsEntryOf d) := decidable_of_iff _ isEntryOf_iff.symm

theorem isEntryOf_child (d : Path) (name : Text) : (d.child name).IsEntryOf d := ⟨name, rfl⟩

theorem IsEntryOf.length_names {p d : Path} (h : p.IsEntryOf d) :
    p.names.length = d.names.length + 1 := by
  obtain ⟨name, rfl⟩ := h
  exact List.length_append

end Path

namespace Walk

/-- A walk with those of its files that satisfy a condition. -/
def filter (keeps : Path → Bool) (w : Walk) : Walk := ⟨w.files.filter keeps, w.failure⟩

@[simp] theorem filter_nothing (keeps : Path → Bool) : nothing.filter keeps = nothing := rfl

@[simp] theorem filter_failed (keeps : Path → Bool) (p : Path) (error : AccessError) :
    (failed p error).filter keeps = failed p error := rfl

theorem filter_andThen (keeps : Path → Bool) (w v : Walk) :
    (w.andThen v).filter keeps = (w.filter keeps).andThen (v.filter keeps) := by
  unfold andThen filter
  cases w.failure with
  | none => rw [List.filter_append]
  | some failure => rfl

end Walk

namespace FileSystem

variable {fs : FileSystem} {options : WalkOptions} {extensions : List Text} {recursive : Bool}
  {root d p : Path} {ancestors : List Location}

/-! ## Extensions -/

/-- A walk selects files if each of its visits does. -/
theorem walkEntries_filter {options' : WalkOptions} {keeps : Path → Bool} {ps : List Path}
    (h : ∀ p ∈ ps, fs.visit options ancestors p = (fs.visit options' ancestors p).filter keeps) :
    fs.walkEntries options ancestors ps = (fs.walkEntries options' ancestors ps).filter keeps := by
  induction ps with
  | nil => rw [walkEntries_nil, walkEntries_nil, Walk.filter_nothing]
  | cons p rest ih =>
    rw [walkEntries_cons, walkEntries_cons, Walk.filter_andThen, h p List.mem_cons_self,
      ih fun q hq => h q (List.mem_cons_of_mem _ hq)]

/-- What is not entered is a file that is kept if it has an extension, or nothing. -/
theorem visit_extensions_of_not_enters (extensions : List Text)
    (he : ¬fs.Enters ⟨[], recursive⟩ ancestors p) :
    fs.visit ⟨extensions, recursive⟩ ancestors p =
      (fs.visit ⟨[], recursive⟩ ancestors p).filter (Path.hasExtension extensions) := by
  have he' : ¬fs.Enters ⟨extensions, recursive⟩ ancestors p := he
  cases hd : fs.isDirectory p with
  | true =>
    rw [visit_of_neither he (.inl hd), visit_of_neither he' (.inl hd), Walk.filter_nothing]
  | false =>
    have hall : fs.visit ⟨[], recursive⟩ ancestors p = ⟨[p], none⟩ := visit_of_file hd rfl
    rw [hall, Walk.filter]
    cases hx : p.hasExtension extensions with
    | true => rw [visit_of_file hd hx, List.filter_cons_of_pos hx, List.filter_nil]
    | false =>
      rw [visit_of_neither he' (.inr hx), List.filter_cons_of_neg (by simp [hx]), List.filter_nil]
      rfl

theorem walkFrom_extensions (fs : FileSystem) (extensions : List Text) (recursive : Bool)
    (ancestors : List Location) (d : Path) :
    fs.walkFrom ⟨extensions, recursive⟩ ancestors d =
      (fs.walkFrom ⟨[], recursive⟩ ancestors d).filter (Path.hasExtension extensions) := by
  induction ancestors, d using walk_induction fs ⟨[], recursive⟩ with
  | step ancestors d ih =>
    cases hl : fs.list d with
    | error error => rw [walkFrom_of_error hl, walkFrom_of_error hl, Walk.filter_failed]
    | ok names =>
      rw [walkFrom_of_list hl, walkFrom_of_list hl]
      refine walkEntries_filter fun p hp => ?_
      obtain ⟨name, hn, rfl⟩ := List.mem_map.1 hp
      by_cases he : fs.Enters ⟨[], recursive⟩ ancestors (d.child name)
      · -- Whether it is entered does not depend on extensions.
        have he' : fs.Enters ⟨extensions, recursive⟩ ancestors (d.child name) := he
        rw [visit_of_enters he, visit_of_enters he', ih names hl name hn he]
      · exact visit_extensions_of_not_enters extensions he

/-- Extensions select files, and change neither their order nor where a walk fails. -/
theorem walk_extensions (fs : FileSystem) (extensions : List Text) (recursive : Bool)
    (root : Path) :
    fs.walk ⟨extensions, recursive⟩ root =
      (fs.walk ⟨[], recursive⟩ root).filter (Path.hasExtension extensions) :=
  walkFrom_extensions fs extensions recursive [fs.realPath root] root

/-! ## Entries of the root -/

/-- A walk that is not recursive enters nothing, so only its root can keep it from ending. -/
theorem failure_visit_not_recursive :
    (fs.visit ⟨extensions, false⟩ ancestors p).failure = none := by
  by_contra h
  obtain ⟨u, hu⟩ := Option.ne_none_iff_exists'.1 h
  exact Bool.false_ne_true (enters_of_failure_visit hu).1

/-- What the walk from a directory yields lies deeper. -/
theorem length_lt_of_mem_files_walkFrom (h : p ∈ (fs.walkFrom options ancestors d).files) :
    d.names.length < p.names.length := by
  cases hl : fs.list d with
  | error error => rw [walkFrom_of_error hl] at h; exact absurd h List.not_mem_nil
  | ok names =>
    rw [walkFrom_of_list hl] at h
    obtain ⟨q, hq, hv⟩ := List.mem_flatMap.1 ((files_walkEntries_sublist _).subset h)
    obtain ⟨name, -, rfl⟩ := List.mem_map.1 hq
    calc d.names.length
      _ < (d.child name).names.length := by
        rw [(Path.isEntryOf_child d name).length_names]
        exact Nat.lt_succ_self _
      _ ≤ p.names.length := (prefix_of_mem_files_visit hv).length_le

/-- The files of the visit of an entry lie deeper, unless the entry itself is the only one. -/
theorem filter_visit_child (extensions : List Text) (ancestors : List Location) (d : Path)
    (name : Text) :
    (fs.visit ⟨extensions, true⟩ ancestors (d.child name)).files.filter (·.IsEntryOf d) =
      (fs.visit ⟨extensions, false⟩ ancestors (d.child name)).files := by
  have he' : ¬fs.Enters ⟨extensions, false⟩ ancestors (d.child name) :=
    fun he => Bool.false_ne_true he.1
  by_cases he : fs.Enters ⟨extensions, true⟩ ancestors (d.child name)
  · rw [visit_of_enters he, visit_of_neither he' (.inl he.2.1), Walk.files_nothing,
      List.filter_eq_nil_iff]
    intro p hp hentry
    have hlt := length_lt_of_mem_files_walkFrom hp
    rw [(of_decide_eq_true hentry).length_names,
      (Path.isEntryOf_child d name).length_names] at hlt
    exact Nat.lt_irrefl _ hlt
  · rw [visit, if_neg he, visit, if_neg he']
    split
    · exact List.filter_cons_of_pos (decide_eq_true (Path.isEntryOf_child d name))
    · rfl

/-- A walk that is not recursive keeps what the root lists of the files of the recursive one,
    if that one does not fail. -/
theorem walk_not_recursive (hw : (fs.walk ⟨extensions, true⟩ root).failure = none) :
    fs.walk ⟨extensions, false⟩ root =
      (fs.walk ⟨extensions, true⟩ root).filter (·.IsEntryOf root) := by
  obtain ⟨names, hl, -, hfiles⟩ := walkFrom_of_failure_eq_none hw
  have hflat : (fs.walk ⟨extensions, false⟩ root).failure = none := by
    rw [walk_eq_walkFrom, walkFrom_of_list hl, failure_walkEntries, List.findSome?_eq_none_iff]
    exact fun p _ => failure_visit_not_recursive
  obtain ⟨names', hl', -, hfiles'⟩ := walkFrom_of_failure_eq_none hflat
  cases hl.symm.trans hl'
  have hkept : (fs.walk ⟨extensions, false⟩ root).files =
      (fs.walk ⟨extensions, true⟩ root).files.filter (·.IsEntryOf root) := by
    rw [walk_eq_walkFrom, walk_eq_walkFrom, hfiles, hfiles', List.filter_flatMap]
    simp only [filter_visit_child]
  rw [Walk.filter, ← hkept, hw, ← hflat]

/-! ## Selections -/

/-- The options of a walk make a selection. With extensions it is the walk without them, of
    which the files with one of them are kept in their order; it fails where that one fails,
    whatever the names of the directories are. If a recursive walk does not fail, neither does
    the one that is not recursive, and of the files of the first it has those that the root
    lists, in their order. -/
theorem walk_selects (fs : FileSystem) (root : Path) (extensions : List Text) :
    (∀ recursive,
      (fs.walk ⟨extensions, recursive⟩ root).failure = (fs.walk ⟨[], recursive⟩ root).failure ∧
      (fs.walk ⟨extensions, recursive⟩ root).files =
        (fs.walk ⟨[], recursive⟩ root).files.filter (Path.hasExtension extensions)) ∧
    ((fs.walk ⟨extensions, true⟩ root).failure = none →
      (fs.walk ⟨extensions, false⟩ root).failure = none ∧
      (fs.walk ⟨extensions, false⟩ root).files =
        (fs.walk ⟨extensions, true⟩ root).files.filter (·.IsEntryOf root)) := by
  refine ⟨fun recursive => ?_, fun hw => ?_⟩
  · rw [walk_extensions fs extensions recursive root]
    exact ⟨rfl, rfl⟩
  · rw [walk_not_recursive hw]
    exact ⟨hw, rfl⟩

/-- A project in which a directory has the name of a file that is looked for, and there is a
    file in a directory that lists nothing else that is. -/
def nested : FileSystem where
  nodes := [(["d"], .directory), (["a.m", "d"], .directory), (["b.M", "a.m", "d"], .file .empty),
    (["c", "a.m", "d"], .file .empty), (["e.m", "d"], .file .empty), (["f", "d"], .file .empty)]
  denied := []
  workingDirectory := []
  distinct := by decide
  named := by decide

/-- The directory is walked for what is in it, and its extension does not matter. -/
theorem walk_selects_nested :
    (nested.walk ⟨["m"], true⟩ (Path.ofText "d")).failure = none ∧
      (nested.walk ⟨[], true⟩ (Path.ofText "d")).files =
        [Path.ofText "d/a.m/b.M", Path.ofText "d/a.m/c", Path.ofText "d/e.m", Path.ofText "d/f"] ∧
      (nested.walk ⟨["m"], true⟩ (Path.ofText "d")).files =
        [Path.ofText "d/a.m/b.M", Path.ofText "d/e.m"] ∧
      (nested.walk ⟨["m"], false⟩ (Path.ofText "d")).failure = none ∧
      (nested.walk ⟨["m"], false⟩ (Path.ofText "d")).files = [Path.ofText "d/e.m"] := by
  obtain ⟨hextensions, hrecursive⟩ := walk_selects nested (Path.ofText "d") ["m"]
  have hall : nested.walk ⟨[], true⟩ (Path.ofText "d") =
      ⟨[Path.ofText "d/a.m/b.M", Path.ofText "d/a.m/c", Path.ofText "d/e.m", Path.ofText "d/f"],
        none⟩ := by cbv
  obtain ⟨hfailure, hfiles⟩ := hextensions true
  rw [hall] at hfailure hfiles
  have hkept : (nested.walk ⟨["m"], true⟩ (Path.ofText "d")).files =
      [Path.ofText "d/a.m/b.M", Path.ofText "d/e.m"] := hfiles.trans (by cbv)
  obtain ⟨hflat, hentries⟩ := hrecursive hfailure
  rw [hkept] at hentries
  exact ⟨hfailure, by rw [hall], hkept, hflat, hentries.trans (by decide)⟩

end FileSystem

end KeyAudit
