import Mathlib
import KeyAudit.Proofs.Walk.Visit

/-!
# What a walk finds

While a directory is walked, so are those on the way to it. Together they are a *chain*
(`Chain`): it begins with the root of the walk, every other directory of it is an entry
of the one before, and their real locations are all different, which is how a walk that
meets links to its own directories comes to an end.

A walk is exact about the chains of its root:

* it fails if and only if the last directory of some chain cannot be listed
  (`failure_walk_ne_none_iff`), and the directory that it names is such a one
  (`chain_of_failure`);
* if it does not fail, it yields the files that are listed in the last directory of a
  chain (`mem_files_walk_iff`), and each of them once (`nodup_files_walk`).

Only a root that no system call takes is another matter: nobody refuses to list it, as
nobody is asked (`walk_exact`).
-/

namespace KeyAudit

/-- A walk ends early, at a directory that the operating system refuses to list. -/
def Walk.IsRefused (w : Walk) : Prop := ∃ u, w.failure = some u ∧ u.error.isRefusal = true

namespace FileSystem

variable (fs : FileSystem)

/-- The directories that a walk from `root` is in at the same time, the last one that
    was entered first. -/
inductive Chain (recursive : Bool) (root : Path) : List Path → Prop
  | root : Chain recursive root [root]
  | enter {d : Path} {ds : List Path} {names : List Text} {name : Text} :
      Chain recursive root (d :: ds) → recursive = true → fs.list d = .ok names →
      name ∈ names → fs.isDirectory (d.child name) = true →
      fs.realPath (d.child name) ∉ (d :: ds).map fs.realPath →
      Chain recursive root (d.child name :: d :: ds)

/-- A file that is looked for is listed in the last directory of a chain. -/
def Finds (options : WalkOptions) (root p : Path) : Prop :=
  ∃ d ds names name, fs.Chain options.recursive root (d :: ds) ∧ fs.list d = .ok names ∧
    name ∈ names ∧ p = d.child name ∧ fs.isDirectory p = false ∧
    p.hasExtension options.extensions = true

/-- The last directory of a chain cannot be listed. -/
def IsObstructed (recursive : Bool) (root : Path) : Prop :=
  ∃ d ds error, fs.Chain recursive root (d :: ds) ∧ fs.list d = .error error

variable {fs} {options : WalkOptions} {root d p : Path} {ds : List Path}

/-! ## Nothing but chains -/

/-- A directory that is entered at the end of a chain makes it longer. -/
theorem Chain.of_enters {names : List Text} {name : Text}
    (hc : fs.Chain options.recursive root (d :: ds)) (hl : fs.list d = .ok names)
    (hn : name ∈ names) (he : fs.Enters options ((d :: ds).map fs.realPath) (d.child name)) :
    fs.Chain options.recursive root (d.child name :: d :: ds) :=
  .enter hc he.1 hl hn he.2.1 he.2.2

/-- Where the walk from the end of a chain fails, a chain ends that cannot be listed. -/
theorem chain_of_failure_walkFrom {u : Unlistable}
    (hc : fs.Chain options.recursive root (d :: ds))
    (h : (fs.walkFrom options ((d :: ds).map fs.realPath) d).failure = some u) :
    ∃ es, fs.Chain options.recursive root (u.path :: es) ∧ fs.list u.path = .error u.error := by
  -- The induction is on the walk; the chain that leads to it is arbitrary, but for its
  -- real locations.
  generalize ha : (d :: ds).map fs.realPath = ancestors at h
  induction ancestors, d using walk_induction fs options generalizing ds with
  | step ancestors d ih =>
    cases hl : fs.list d with
    | error error =>
      rw [walkFrom_of_error hl, Walk.failure_failed, Option.some_inj] at h
      subst h
      exact ⟨ds, hc, hl⟩
    | ok names =>
      rw [walkFrom_of_list hl, failure_walkEntries, List.findSome?_map] at h
      obtain ⟨name, hn, hv⟩ := List.exists_of_findSome?_eq_some h
      have he := enters_of_failure_visit hv
      refine ih names hl name hn he (.of_enters hc hl hn (ha ▸ he)) (ha ▸ rfl) ?_
      rwa [← visit_of_enters he]

/-- What the walk from the end of a chain yields is listed at the end of a chain. -/
theorem finds_of_mem_files_walkFrom (hc : fs.Chain options.recursive root (d :: ds))
    (h : p ∈ (fs.walkFrom options ((d :: ds).map fs.realPath) d).files) :
    fs.Finds options root p := by
  generalize ha : (d :: ds).map fs.realPath = ancestors at h
  induction ancestors, d using walk_induction fs options generalizing ds with
  | step ancestors d ih =>
    cases hl : fs.list d with
    | error error => rw [walkFrom_of_error hl] at h; exact absurd h List.not_mem_nil
    | ok names =>
      rw [walkFrom_of_list hl] at h
      obtain ⟨q, hq, hv⟩ := List.mem_flatMap.1 ((files_walkEntries_sublist _).subset h)
      obtain ⟨name, hn, rfl⟩ := List.mem_map.1 hq
      rcases mem_files_visit hv with ⟨he, hv⟩ | ⟨rfl, hd, hx⟩
      · exact ih names hl name hn he (.of_enters hc hl hn (ha ▸ he)) (ha ▸ rfl) hv
      · exact ⟨d, ds, names, name, hc, hl, hn, rfl, hd, hx⟩

/-! ## All chains -/

/-- A walk that does not fail has come to the end of every chain, where it did not fail
    either, and it has kept what was yielded there. -/
theorem walkFrom_of_chain (hw : (fs.walk options root).failure = none)
    (hc : fs.Chain options.recursive root (d :: ds)) :
    (fs.walkFrom options ((d :: ds).map fs.realPath) d).failure = none ∧
      (fs.walkFrom options ((d :: ds).map fs.realPath) d).files ⊆
        (fs.walk options root).files := by
  generalize hds : d :: ds = c at hc
  induction hc generalizing d ds with
  | root =>
    cases hds
    exact ⟨hw, List.Subset.refl _⟩
  | @enter d' ds' names name hc hr hl hn hd hv ih =>
    -- The directory before has been walked without failure, and this was one of the visits.
    cases hds
    obtain ⟨hf, hs⟩ := ih rfl
    obtain ⟨names', hl', hvisits, hfiles⟩ := walkFrom_of_failure_eq_none hf
    cases hl.symm.trans hl'
    have he : fs.Enters options ((d' :: ds').map fs.realPath) (d'.child name) := ⟨hr, hd, hv⟩
    have hvisit := visit_of_enters he
    refine ⟨hvisit ▸ hvisits name hn, fun q hq => hs ?_⟩
    rw [hfiles]
    exact List.mem_flatMap.2 ⟨name, hn, hvisit ▸ hq⟩

theorem mem_files_walk_of_finds (hw : (fs.walk options root).failure = none)
    (h : fs.Finds options root p) : p ∈ (fs.walk options root).files := by
  obtain ⟨d, ds, names, name, hc, hl, hn, rfl, hd, hx⟩ := h
  obtain ⟨hf, hs⟩ := walkFrom_of_chain hw hc
  obtain ⟨names', hl', -, hfiles⟩ := walkFrom_of_failure_eq_none hf
  cases hl.symm.trans hl'
  refine hs ?_
  rw [hfiles]
  exact List.mem_flatMap.2 ⟨name, hn, by rw [visit_of_file hd hx]; exact List.mem_singleton.2 rfl⟩

/-! ## Every file once -/

/-- What the walk from a directory yields lies below it. -/
theorem prefix_of_mem_files_walkFrom {ancestors : List Location} {q : Path}
    (h : q ∈ (fs.walkFrom options ancestors d).files) : d.names <+: q.names := by
  induction ancestors, d using walk_induction fs options with
  | step ancestors d ih =>
    cases hl : fs.list d with
    | error error => rw [walkFrom_of_error hl] at h; exact absurd h List.not_mem_nil
    | ok names =>
      rw [walkFrom_of_list hl] at h
      obtain ⟨p, hp, hv⟩ := List.mem_flatMap.1 ((files_walkEntries_sublist _).subset h)
      obtain ⟨name, hn, rfl⟩ := List.mem_map.1 hp
      have hd : d.names <+: (d.child name).names := List.prefix_append _ _
      rcases mem_files_visit hv with ⟨he, hv⟩ | ⟨rfl, -⟩
      · exact hd.trans (ih names hl name hn he hv)
      · exact hd

theorem prefix_of_mem_files_visit {ancestors : List Location} {q : Path}
    (h : q ∈ (fs.visit options ancestors p).files) : p.names <+: q.names := by
  rcases mem_files_visit h with ⟨-, h⟩ | ⟨rfl, -⟩
  · exact prefix_of_mem_files_walkFrom h
  · exact List.prefix_refl _

/-- Entries of one directory of which something common lies below are the same. -/
theorem eq_of_child_prefix {d q : Path} {m n : Text} (hm : (d.child m).names <+: q.names)
    (hn : (d.child n).names <+: q.names) : m = n := by
  have h := List.prefix_of_prefix_length_le hm hn (by simp [Path.child])
  have hmn : d.names ++ [m] = d.names ++ [n] := h.eq_of_length (by simp [Path.child])
  simpa using hmn

theorem nodup_of_list {names : List Text} (h : fs.list d = .ok names) : names.Nodup := by
  obtain ⟨-, l, -, -, -, rfl⟩ := list_eq_ok_iff.1 h
  exact fs.nodup_entries l

/-- The walk from a directory yields nothing twice: what is found below two of its
    entries lies on paths that differ there. -/
theorem nodup_files_walkFrom (ancestors : List Location) (d : Path) :
    (fs.walkFrom options ancestors d).files.Nodup := by
  induction ancestors, d using walk_induction fs options with
  | step ancestors d ih =>
    cases hl : fs.list d with
    | error error => rw [walkFrom_of_error hl]; exact List.nodup_nil
    | ok names =>
      rw [walkFrom_of_list hl]
      refine List.Nodup.sublist (files_walkEntries_sublist _) ?_
      rw [List.flatMap_map, List.nodup_flatMap]
      constructor
      · -- Below one entry nothing comes twice, by induction.
        intro name hn
        by_cases he : fs.Enters options ancestors (d.child name)
        · rw [visit_of_enters he]
          exact ih names hl name hn he
        · rw [visit, if_neg he]
          split
          · exact List.nodup_singleton _
          · exact List.nodup_nil
      · -- Below two entries there is nothing in common.
        refine (nodup_of_list hl).imp fun {m n} hmn q hm hn => hmn ?_
        exact eq_of_child_prefix (prefix_of_mem_files_visit hm) (prefix_of_mem_files_visit hn)

/-! ## Walks -/

/-- The directory that a failing walk names is the last one of a chain. -/
theorem chain_of_failure {u : Unlistable} (h : (fs.walk options root).failure = some u) :
    ∃ ds, fs.Chain options.recursive root (u.path :: ds) ∧ fs.list u.path = .error u.error :=
  chain_of_failure_walkFrom .root h

/-- A walk fails if and only if the last directory of some chain cannot be listed. -/
theorem failure_walk_ne_none_iff :
    (fs.walk options root).failure ≠ none ↔ fs.IsObstructed options.recursive root := by
  constructor
  · intro h
    obtain ⟨u, hu⟩ := Option.ne_none_iff_exists'.1 h
    obtain ⟨ds, hc, hl⟩ := chain_of_failure hu
    exact ⟨u.path, ds, u.error, hc, hl⟩
  · rintro ⟨d, ds, error, hc, hl⟩ hw
    obtain ⟨names, hl', -⟩ := walkFrom_of_failure_eq_none (walkFrom_of_chain hw hc).1
    cases hl.symm.trans hl'

/-- A walk that does not fail yields what is listed at the ends of chains. -/
theorem mem_files_walk_iff (hw : (fs.walk options root).failure = none) :
    p ∈ (fs.walk options root).files ↔ fs.Finds options root p :=
  ⟨finds_of_mem_files_walkFrom .root, mem_files_walk_of_finds hw⟩

/-- System calls take the paths of what is listed. -/
theorem unusable?_child_of_list {names : List Text} {name : Text} (hl : fs.list d = .ok names)
    (hn : name ∈ names) : (d.child name).unusable? = none := by
  obtain ⟨hd, l, -, -, -, rfl⟩ := list_eq_ok_iff.1 hl
  exact Path.unusable?_child hd (unusable?_of_isNodeName (isNodeName_of_mem_entries hn))

/-- System calls take the paths of the files that a walk yields, even if it fails. -/
theorem unusable?_of_mem_files_walk (h : p ∈ (fs.walk options root).files) :
    p.unusable? = none := by
  obtain ⟨d, ds, names, name, -, hl, hn, rfl, -⟩ := finds_of_mem_files_walkFrom .root h
  exact unusable?_child_of_list hl hn

/-- A walk yields no file twice. -/
theorem nodup_files_walk : (fs.walk options root).files.Nodup :=
  nodup_files_walkFrom _ _

/-- A system call takes the paths of all directories of a chain but perhaps its root. -/
theorem Chain.unusable? (hroot : root.unusable? = none) {recursive : Bool}
    (hc : fs.Chain recursive root (d :: ds)) : d.unusable? = none := by
  cases hc with
  | root => exact hroot
  | enter _ _ _ _ hd _ => exact (isDirectory_iff.1 hd).1

/-- A walk whose root may be asked for only fails at a directory that the operating
    system refuses to list. -/
theorem isRefusal_of_failure (hroot : root.unusable? = none) {u : Unlistable}
    (h : (fs.walk options root).failure = some u) : u.error.isRefusal = true := by
  obtain ⟨ds, hc, hl⟩ := chain_of_failure h
  exact isRefusal_of_list (hc.unusable? hroot) hl

theorem isRefused_iff (hroot : root.unusable? = none) :
    (fs.walk options root).IsRefused ↔ (fs.walk options root).failure ≠ none := by
  constructor
  · rintro ⟨u, h, -⟩
    exact Option.ne_none_iff_exists'.2 ⟨u, h⟩
  · intro h
    obtain ⟨u, h⟩ := Option.ne_none_iff_exists'.1 h
    exact ⟨u, h, isRefusal_of_failure hroot h⟩

theorem failure_of_not_isRefused (hroot : root.unusable? = none)
    (h : ¬(fs.walk options root).IsRefused) : (fs.walk options root).failure = none :=
  not_ne_iff.1 (mt (isRefused_iff hroot).2 h)

/-- What a walk does, for every root without the character that ends a path: a root that
    cannot be spelled in octets is an error of its own. Any other walk is refused if and
    only if the last directory of some chain cannot be listed, and otherwise it yields
    exactly the files at the ends of chains, each of them once. -/
theorem walk_exact (fs : FileSystem) (options : WalkOptions) (root : Path)
    (hroot : CodePoint.char '\x00' ∉ root.toText) :
    (∀ part, FileName.unencodable? root.toText = some part →
      fs.walk options root = .failed root (.unencodable part)) ∧
    (FileName.unencodable? root.toText = none →
      ((fs.walk options root).IsRefused ↔ fs.IsObstructed options.recursive root) ∧
      (¬(fs.walk options root).IsRefused →
        (fs.walk options root).failure = none ∧ (fs.walk options root).files.Nodup ∧
          ∀ p, p ∈ (fs.walk options root).files ↔ fs.Finds options root p)) := by
  refine ⟨fun part hpart => ?_, fun hpart => ?_⟩
  · have hu : root.unusable? = some (.unencodable part) := by
      rw [Path.unusable?, KeyAudit.unusable?, hpart]
    have hl : fs.list root = .error (.unencodable part) := by rw [list, hu]
    rw [walk_eq_walkFrom, walkFrom_of_error hl]
  · have hu : root.unusable? = none := unusable?_eq_none_iff.2 ⟨hpart, hroot⟩
    refine ⟨(isRefused_iff hu).trans failure_walk_ne_none_iff, fun h => ?_⟩
    have hw := failure_of_not_isRefused hu h
    exact ⟨hw, nodup_files_walk, fun p => mem_files_walk_iff hw⟩

/-- A directory that holds a file and a link to the directory around it. -/
def looped : FileSystem where
  nodes := [(["d"], .directory), (["up", "d"], .link ".."), (["f", "d"], .file .empty)]
  denied := []
  workingDirectory := []
  distinct := by decide
  named := by decide

/-- Through the link the walk leaves its root, which it does not enter again. -/
theorem walk_exact_looped :
    CodePoint.char '\x00' ∉ (Path.ofText "d").toText ∧
      FileName.unencodable? (Path.ofText "d").toText = none ∧
      ¬(looped.walk ⟨[], true⟩ (Path.ofText "d")).IsRefused ∧
      ∀ p, p ∈ [Path.ofText "d/f"] ↔ looped.Finds ⟨[], true⟩ (Path.ofText "d") p := by
  have hnul : CodePoint.char '\x00' ∉ (Path.ofText "d").toText := by decide
  have hpart : FileName.unencodable? (Path.ofText "d").toText = none := by cbv
  have hw : looped.walk ⟨[], true⟩ (Path.ofText "d") = ⟨[Path.ofText "d/f"], none⟩ := by cbv
  have h := (walk_exact looped ⟨[], true⟩ (Path.ofText "d") hnul).2 hpart
  rw [hw] at h
  have hrefused : ¬(Walk.mk [Path.ofText "d/f"] none).IsRefused := by
    rintro ⟨u, hu, -⟩
    cases hu
  obtain ⟨-, -, hmem⟩ := h.2 hrefused
  exact ⟨hnul, hpart, hw ▸ hrefused, hmem⟩

/-- The walk of a root that is a single half of a pair is not refused, although its only
    chain ends with a directory that cannot be listed. -/
theorem not_isRefused_of_lone_half :
    CodePoint.char '\x00' ∉ (Path.mk .workingDirectory [[.half ⟨0xD800, by decide⟩]]).toText ∧
      looped.IsObstructed true (.mk .workingDirectory [[.half ⟨0xD800, by decide⟩]]) ∧
      ¬(looped.walk ⟨[], true⟩
        (.mk .workingDirectory [[.half ⟨0xD800, by decide⟩]])).IsRefused := by
  refine ⟨by decide, ⟨_, _, _, .root, rfl⟩, ?_⟩
  rintro ⟨u, hu, hr⟩
  cases hu
  cases hr

end FileSystem

end KeyAudit
