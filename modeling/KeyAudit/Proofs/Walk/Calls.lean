import Mathlib
import KeyAudit.Proofs.Walk.Chain

/-!
# A walk and its calls

A walk is carried out by calls, each of which walks one directory. A call lists its directory
and is *inside* it from then on: the real locations of the directories that calls are inside
are kept in one set, to which every call has access. Then it comes to one entry after the other,
and begins a call for each that is a directory outside this set. The real location goes out of
the set when the call ends, which it does after its last entry, or with the failure of a call
that it has begun. A call that cannot list its directory fails before it is inside.

`FileSystem.step` is one step of this, in which nothing sees to it that there is an end, and
`begin` is where a walk begins. The links of a project may lead around in circles, so that
there are ever longer paths to go. What becomes less is the number of real directories that
no call is inside:

* `reaches_end`: a call ends with the walk from its directory, and leaves the set as it was;
* `UnderWay`: the calls that have not ended form a chain, and the set holds the real locations
  of its directories, but for the last one, until that has been listed;
* `walk_total`: so a walk always ends, and there are never more calls at a time than there are
  real directories.
-/

open StateTransition (Reaches)

namespace KeyAudit

/-- A call of a walk, with the entries that it has still to come to once it has listed its
    directory. -/
structure Call where
  directory : Path
  due : Option (List Path)

/-- A walk under way. -/
structure Walker where
  /-- The calls that have not ended, the last one that began first. -/
  calls : List Call
  /-- The real locations of the directories that calls are inside. -/
  inside : Finset Location
  /-- The files that have been yielded. -/
  files : List Path
  /-- The failure that makes one call after the other end. -/
  failure : Option Unlistable

namespace FileSystem

variable (fs : FileSystem)

/-- The next step of a walk, which depends on the last call that began. -/
def step (options : WalkOptions) (w : Walker) : Option Walker :=
  match w.calls with
  | [] => none
  | ⟨d, due⟩ :: callers =>
    let left : Walker := { w with calls := callers, inside := w.inside.erase (fs.realPath d) }
    match w.failure, due with
    | some _, _ => some left
    | none, none =>
      match fs.list d with
      | .error error => some { w with calls := callers, failure := some ⟨d, error⟩ }
      | .ok names => some { w with
          calls := ⟨d, some (names.map d.child)⟩ :: callers
          inside := insert (fs.realPath d) w.inside }
    | none, some [] => some left
    | none, some (p :: due) =>
      let passed : Walker := { w with calls := ⟨d, some due⟩ :: callers }
      if fs.isDirectory p then
        if options.recursive = true ∧ fs.realPath p ∉ w.inside then
          some { passed with calls := ⟨p, none⟩ :: passed.calls }
        else some passed
      else if p.hasExtension options.extensions then some { passed with files := w.files ++ [p] }
      else some passed

/-- The walk of a root that is about to begin, while calls are inside some directories. -/
def begin (root : Path) (inside : Finset Location) : Walker := ⟨[⟨root, none⟩], inside, [], none⟩

/-- What a call that has ended leaves of the set of the directories that calls are inside: it
    has gone out of its own, if it ever was inside. -/
def after (d : Path) (inside : Finset Location) : Finset Location :=
  match fs.list d with
  | .error _ => inside
  | .ok _ => inside.erase (fs.realPath d)

/-- The steps of a walk, by what they do. -/
inductive Goes (fs : FileSystem) (options : WalkOptions) : Walker → Walker → Prop
  /-- A call ends that has been inside its directory. -/
  | leaves {d due callers inside files failure} (h : failure ≠ none ∨ due = some []) :
      Goes fs options ⟨⟨d, due⟩ :: callers, inside, files, failure⟩
        ⟨callers, inside.erase (fs.realPath d), files, failure⟩
  /-- A call ends as it cannot list its directory. -/
  | fails {d callers inside files error} (hl : fs.list d = .error error) :
      Goes fs options ⟨⟨d, none⟩ :: callers, inside, files, none⟩
        ⟨callers, inside, files, some ⟨d, error⟩⟩
  /-- A call has listed its directory. -/
  | lists {d callers inside files names} (hl : fs.list d = .ok names) :
      Goes fs options ⟨⟨d, none⟩ :: callers, inside, files, none⟩
        ⟨⟨d, some (names.map d.child)⟩ :: callers, insert (fs.realPath d) inside, files, none⟩
  /-- A call begins. -/
  | begins {d p due callers inside files} (hr : options.recursive = true)
      (hd : fs.isDirectory p = true) (hv : fs.realPath p ∉ inside) :
      Goes fs options ⟨⟨d, some (p :: due)⟩ :: callers, inside, files, none⟩
        ⟨⟨p, none⟩ :: ⟨d, some due⟩ :: callers, inside, files, none⟩
  /-- A call comes to an entry for which none begins. -/
  | passes {d p due callers inside files files'} :
      Goes fs options ⟨⟨d, some (p :: due)⟩ :: callers, inside, files, none⟩
        ⟨⟨d, some due⟩ :: callers, inside, files', none⟩

variable {fs} {options : WalkOptions} {d p root : Path} {callers : List Call}
  {inside : Finset Location} {files : List Path} {ancestors : List Location}

theorem after_of_not_mem (h : fs.realPath d ∉ inside) : fs.after d inside = inside := by
  unfold after
  cases fs.list d with
  | error error => rfl
  | ok names => exact Finset.erase_eq_of_notMem h

/-! ## Steps -/

/-- A call ends with a failure. -/
theorem step_of_failure {due : Option (List Path)} (u : Unlistable) :
    fs.step options ⟨⟨d, due⟩ :: callers, inside, files, some u⟩ =
      some ⟨callers, inside.erase (fs.realPath d), files, some u⟩ := rfl

/-- A call ends after its last entry. -/
theorem step_of_nil : fs.step options ⟨⟨d, some []⟩ :: callers, inside, files, none⟩ =
    some ⟨callers, inside.erase (fs.realPath d), files, none⟩ := rfl

theorem step_of_error {error : AccessError} (hl : fs.list d = .error error) :
    fs.step options ⟨⟨d, none⟩ :: callers, inside, files, none⟩ =
      some ⟨callers, inside, files, some ⟨d, error⟩⟩ := by
  simp only [step, hl]

theorem step_of_list {names : List Text} (hl : fs.list d = .ok names) :
    fs.step options ⟨⟨d, none⟩ :: callers, inside, files, none⟩ =
      some ⟨⟨d, some (names.map d.child)⟩ :: callers, insert (fs.realPath d) inside, files,
        none⟩ := by
  simp only [step, hl]

/-- A call begins for an entry that is entered. -/
theorem step_of_enters {due : List Path} (hi : inside = ancestors.toFinset)
    (he : fs.Enters options ancestors p) :
    fs.step options ⟨⟨d, some (p :: due)⟩ :: callers, inside, files, none⟩ =
      some ⟨⟨p, none⟩ :: ⟨d, some due⟩ :: callers, inside, files, none⟩ := by
  obtain ⟨hr, hd, hv⟩ := he
  rw [← List.mem_toFinset, ← hi] at hv
  simp only [step, hd, hr, hv, not_false_eq_true, and_self, if_true]

/-- What is not entered is a file that is yielded, or nothing. -/
theorem step_of_not_enters {due : List Path} (hi : inside = ancestors.toFinset)
    (he : ¬fs.Enters options ancestors p) :
    (fs.visit options ancestors p).failure = none ∧
      fs.step options ⟨⟨d, some (p :: due)⟩ :: callers, inside, files, none⟩ =
        some ⟨⟨d, some due⟩ :: callers, inside, files ++ (fs.visit options ancestors p).files,
          none⟩ := by
  cases hd : fs.isDirectory p with
  | true =>
    have hv : ¬(options.recursive = true ∧ fs.realPath p ∉ inside) := fun ⟨hr, hv⟩ =>
      he ⟨hr, hd, by rwa [hi, List.mem_toFinset] at hv⟩
    rw [visit_of_neither he (.inl hd)]
    simp only [step, hd, if_true, if_neg hv, Walk.failure_nothing, Walk.files_nothing,
      List.append_nil, and_self]
  | false =>
    cases hx : p.hasExtension options.extensions with
    | true =>
      rw [visit_of_file hd hx]
      simp [step, hd, hx]
    | false =>
      rw [visit_of_neither he (.inr hx)]
      simp [step, hd, hx]

/-! ## Calls from their beginning to their end -/

/-- One entry of a call, if the call that may begin for it ends with its walk. -/
theorem reaches_visit {due : List Path} (hi : inside = ancestors.toFinset)
    (hcall : fs.Enters options ancestors p → ∀ callers files,
      Reaches (fs.step options) ⟨⟨p, none⟩ :: callers, inside, files, none⟩
        ⟨callers, inside, files ++ (fs.visit options ancestors p).files,
          (fs.visit options ancestors p).failure⟩) :
    Reaches (fs.step options) ⟨⟨d, some (p :: due)⟩ :: callers, inside, files, none⟩
      ⟨⟨d, some due⟩ :: callers, inside, files ++ (fs.visit options ancestors p).files,
        (fs.visit options ancestors p).failure⟩ := by
  by_cases he : fs.Enters options ancestors p
  · exact .head (step_of_enters hi he) (hcall he _ _)
  · obtain ⟨hf, hs⟩ := step_of_not_enters hi he
    rw [hf]
    exact .single hs

/-- The entries of a call, and its end. -/
theorem reaches_entries {ps : List Path} (hi : inside = ancestors.toFinset)
    (hcalls : ∀ p ∈ ps, fs.Enters options ancestors p → ∀ callers files,
      Reaches (fs.step options) ⟨⟨p, none⟩ :: callers, inside, files, none⟩
        ⟨callers, inside, files ++ (fs.visit options ancestors p).files,
          (fs.visit options ancestors p).failure⟩) :
    Reaches (fs.step options) ⟨⟨d, some ps⟩ :: callers, inside, files, none⟩
      ⟨callers, inside.erase (fs.realPath d),
        files ++ (fs.walkEntries options ancestors ps).files,
        (fs.walkEntries options ancestors ps).failure⟩ := by
  induction ps generalizing files with
  | nil =>
    rw [walkEntries_nil, Walk.files_nothing, List.append_nil]
    exact .single step_of_nil
  | cons p due ih =>
    refine (reaches_visit hi (hcalls p List.mem_cons_self)).trans ?_
    rw [walkEntries_cons, Walk.andThen]
    cases hf : (fs.visit options ancestors p).failure with
    | some u => exact .single (step_of_failure u)
    | none =>
      rw [← List.append_assoc]
      exact ih fun q hq => hcalls q (List.mem_cons_of_mem _ hq)

/-- A call ends with the walk from its directory, and leaves the set as it was. -/
theorem reaches_end (fs : FileSystem) (options : WalkOptions) (ancestors : List Location)
    (d : Path) (hi : insert (fs.realPath d) inside = ancestors.toFinset) :
    Reaches (fs.step options) ⟨⟨d, none⟩ :: callers, inside, files, none⟩
      ⟨callers, fs.after d inside, files ++ (fs.walkFrom options ancestors d).files,
        (fs.walkFrom options ancestors d).failure⟩ := by
  -- The induction is on the walk; the callers, the files that have been yielded and the order
  -- of the set are arbitrary.
  induction ancestors, d using walk_induction fs options generalizing callers inside files with
  | step ancestors d ih =>
    cases hl : fs.list d with
    | error error =>
      rw [walkFrom_of_error hl, after, hl]
      exact .single ((step_of_error hl).trans (by simp [Walk.failed]))
    | ok names =>
      rw [walkFrom_of_list hl, after, hl]
      refine .head (step_of_list hl) ?_
      -- That the directory is inserted once more is undone when it is erased.
      rw [← Finset.erase_insert_eq_erase]
      refine reaches_entries hi fun p hp he callers files => ?_
      obtain ⟨name, hn, rfl⟩ := List.mem_map.1 hp
      have hv : fs.realPath (d.child name) ∉ insert (fs.realPath d) inside := fun hm =>
        he.2.2 (List.mem_toFinset.1 (hi ▸ hm))
      have hcall : Reaches (fs.step options)
          ⟨⟨d.child name, none⟩ :: callers, insert (fs.realPath d) inside, files, none⟩ _ :=
        ih names hl name hn he (by rw [List.toFinset_cons, hi])
      rwa [after_of_not_mem hv, ← visit_of_enters he] at hcall

/-! ## What a step can do -/

theorem goes_of_step {w w' : Walker} (h : fs.step options w = some w') : fs.Goes options w w' := by
  obtain ⟨calls, inside, files, failure⟩ := w
  cases calls with
  | nil => cases h
  | cons call callers =>
    obtain ⟨d, due⟩ := call
    cases failure with
    | some u => cases h; exact .leaves (.inl (Option.some_ne_none u))
    | none =>
      rcases due with _ | _ | ⟨p, due⟩
      · cases hl : fs.list d with
        | error error => rw [step_of_error hl] at h; cases h; exact .fails hl
        | ok names => rw [step_of_list hl] at h; cases h; exact .lists hl
      · cases h; exact .leaves (.inr rfl)
      · simp only [step] at h
        split at h
        · case isTrue hd =>
            split at h
            · case isTrue hv => cases h; exact .begins hv.1 hd hv.2
            · cases h; exact .passes
        · split at h
          · cases h; exact .passes
          · cases h; exact .passes

/-! ## Chains of calls -/

theorem Chain.nodup {recursive : Bool} {c : List Path} (hc : fs.Chain recursive root c) :
    (c.map fs.realPath).Nodup := by
  induction hc with
  | root => exact List.nodup_singleton _
  | enter hc hr hl hn hd hv ih => exact List.nodup_cons.2 ⟨hv, ih⟩

/-- The directories of a chain are real ones, unless its root is the only one and cannot be
    listed. -/
theorem Chain.hasDirectory_of_mem {recursive : Bool} {ds : List Path}
    (hc : fs.Chain recursive root (d :: ds)) :
    (∀ e ∈ ds, fs.hasDirectory (fs.realPath e) = true) ∧
      (ds ≠ [] → fs.hasDirectory (fs.realPath d) = true) := by
  generalize hds : d :: ds = c at hc
  induction hc generalizing d ds with
  | root =>
    cases hds
    exact ⟨fun e he => absurd he List.not_mem_nil, fun h => absurd rfl h⟩
  | @enter d' ds' names name hc hr hl hn hd hv ih =>
    cases hds
    refine ⟨fun e he => ?_, fun _ => hasDirectory_realPath hd⟩
    rcases List.mem_cons.1 he with rfl | he
    · obtain ⟨-, l, hr, hdir, -⟩ := list_eq_ok_iff.1 hl
      rwa [realPath_of_resolve hr]
    · exact (ih rfl).1 e he

theorem finite_hasDirectory (fs : FileSystem) : {l | fs.hasDirectory l = true}.Finite :=
  fs.directories.toFinset.finite_toSet.subset fun _ hl => List.mem_toFinset.2 (mem_directories hl)

/-- A chain has no more directories than there are real ones. -/
theorem Chain.length_le {recursive : Bool} {c : List Path} (hc : fs.Chain recursive root c) :
    c.length ≤ {l | fs.hasDirectory l = true}.ncard := by
  have hreal : ∀ ls : List Location, ls.Nodup → (∀ l ∈ ls, fs.hasDirectory l = true) →
      ls.length ≤ {l | fs.hasDirectory l = true}.ncard := fun ls hls hdir => by
    rw [← List.toFinset_card_of_nodup hls, ← Set.ncard_coe_finset]
    exact Set.ncard_le_ncard (fun l hl => hdir l (List.mem_toFinset.1 hl)) fs.finite_hasDirectory
  rcases c with _ | ⟨d, _ | ⟨e, ds⟩⟩
  · exact Nat.zero_le _
  · -- There is always the directory at the top.
    exact hreal [[]] (List.nodup_singleton _) fun l hl => by rw [List.mem_singleton.1 hl]; rfl
  · obtain ⟨hds, hd⟩ := hc.hasDirectory_of_mem
    rw [← List.length_map (f := fs.realPath)]
    refine hreal _ hc.nodup fun l hl => ?_
    obtain ⟨p, hp, rfl⟩ := List.mem_map.1 hl
    rcases List.mem_cons.1 hp with rfl | hp
    · exact hd (List.cons_ne_nil _ _)
    · exact hds p hp

/-! ## Walks under way -/

theorem Chain.of_cons {recursive : Bool} {c : List Path} (hc : fs.Chain recursive root (d :: c))
    (h : c ≠ []) : fs.Chain recursive root c := by
  cases hc with
  | root => exact absurd rfl h
  | enter hc _ _ _ _ _ => exact hc

variable (fs) in
/-- The real locations of the directories of some calls. -/
def places (calls : List Call) : Finset Location :=
  (calls.map fun call => fs.realPath call.directory).toFinset

theorem places_cons (call : Call) :
    fs.places (call :: callers) = insert (fs.realPath call.directory) (fs.places callers) :=
  List.toFinset_cons

theorem mem_places {calls : List Call} {l : Location} :
    l ∈ fs.places calls ↔ l ∈ (calls.map Call.directory).map fs.realPath := by
  rw [places, List.mem_toFinset, List.map_map]
  rfl

/-- What holds of the calls that a walk has not ended yet. -/
structure UnderWay (fs : FileSystem) (options : WalkOptions) (root : Path) (w : Walker) :
    Prop where
  /-- The directories of the calls form a chain. -/
  chain : w.calls ≠ [] → fs.Chain options.recursive root (w.calls.map Call.directory)
  /-- What a call has still to come to is listed in its directory. -/
  listed : ∀ call ∈ w.calls, ∀ ps, call.due = some ps →
    ∃ names, fs.list call.directory = .ok names ∧ ps ⊆ names.map call.directory.child
  /-- A call that has begun another one has listed its directory before. -/
  callers : ∀ call ∈ w.calls.tail, call.due.isSome
  /-- Calls end with a failure only if they have listed their directories. -/
  failed : w.failure ≠ none → ∀ call ∈ w.calls, call.due.isSome
  /-- The directories that calls are inside are those that have been listed. -/
  inside : w.inside = fs.places (w.calls.filter (·.due.isSome))

namespace UnderWay

variable {w w' : Walker} {call : Call} {due ps : List Path} {failure : Option Unlistable}

theorem begin (fs : FileSystem) (options : WalkOptions) (root : Path) :
    fs.UnderWay options root (begin root ∅) where
  chain _ := .root
  listed call hcall ps hps := by
    rw [List.mem_singleton.1 hcall] at hps
    cases hps
  callers call hcall := absurd hcall List.not_mem_nil
  failed h := absurd rfl h
  inside := rfl

/-- The last call that began is not at the place of a caller. -/
theorem realPath_notMem
    (h : fs.UnderWay options root ⟨call :: callers, inside, files, failure⟩) :
    fs.realPath call.directory ∉ fs.places callers := by
  rw [mem_places]
  exact (List.nodup_cons.1 (h.chain (List.cons_ne_nil _ _)).nodup).1

/-- A call that has not listed its directory is not inside it, as its callers are inside
    theirs. -/
theorem inside_of_none
    (h : fs.UnderWay options root ⟨⟨d, none⟩ :: callers, inside, files, failure⟩) :
    inside = fs.places callers := by
  have hcallers : ∀ call ∈ callers, call.due.isSome := h.callers
  exact h.inside.trans (congrArg _ (List.filter_eq_self.2 hcallers))

/-- A call that has listed its directory is inside it, as its callers are inside theirs. -/
theorem inside_of_some
    (h : fs.UnderWay options root ⟨⟨d, some due⟩ :: callers, inside, files, failure⟩) :
    inside = insert (fs.realPath d) (fs.places callers) := by
  have hcallers : ∀ call ∈ callers, call.due.isSome := h.callers
  refine h.inside.trans ?_
  rw [List.filter_cons_of_pos rfl, List.filter_eq_self.2 hcallers, places_cons]

/-- A call that goes out of the place that it is inside leaves those of its callers. -/
theorem inside_erase
    (h : fs.UnderWay options root ⟨⟨d, some due⟩ :: callers, inside, files, failure⟩) :
    inside.erase (fs.realPath d) = fs.places callers := by
  rw [h.inside_of_some]
  exact Finset.erase_insert h.realPath_notMem

/-- When the last call that began has ended, the others are under way. -/
theorem ended {files' : List Path} {failure' : Option Unlistable}
    (h : fs.UnderWay options root ⟨call :: callers, inside, files, failure⟩) :
    fs.UnderWay options root ⟨callers, fs.places callers, files', failure'⟩ where
  chain hne := (h.chain (List.cons_ne_nil _ _)).of_cons (mt List.map_eq_nil_iff.1 hne)
  listed call hcall := h.listed call (List.mem_cons_of_mem _ hcall)
  callers call hcall := h.callers call (List.mem_of_mem_tail hcall)
  failed _ := h.callers
  inside := by
    have hcallers : ∀ call ∈ callers, call.due.isSome := h.callers
    rw [List.filter_eq_self.2 hcallers]

/-- When the last call that began goes on, it is inside its directory. -/
theorem going {d : Path} {files' : List Path} {ps' : Option (List Path)} {names : List Text}
    (h : fs.UnderWay options root ⟨⟨d, ps'⟩ :: callers, inside, files, failure⟩)
    (hl : fs.list d = .ok names) (hps : ps ⊆ names.map d.child) :
    fs.UnderWay options root
      ⟨⟨d, some ps⟩ :: callers, insert (fs.realPath d) (fs.places callers), files', none⟩ where
  chain := fun _ => h.chain (List.cons_ne_nil _ _)
  listed := List.forall_mem_cons.2
    ⟨fun _ hps' => ⟨names, hl, Option.some_inj.1 hps' ▸ hps⟩,
      fun call hcall => h.listed call (List.mem_cons_of_mem _ hcall)⟩
  callers := h.callers
  failed hf := absurd rfl hf
  inside := by
    have hcallers : ∀ call ∈ callers, call.due.isSome := h.callers
    rw [List.filter_cons_of_pos rfl, List.filter_eq_self.2 hcallers, places_cons]

/-- When the last call that began has come to its next entry, a call may begin there. -/
theorem begun
    (h : fs.UnderWay options root ⟨⟨d, some (p :: due)⟩ :: callers, inside, files, none⟩)
    (hr : options.recursive = true) (hd : fs.isDirectory p = true)
    (hv : fs.realPath p ∉ inside) :
    fs.UnderWay options root ⟨⟨p, none⟩ :: ⟨d, some due⟩ :: callers, inside, files, none⟩ := by
  have hlisted : ∃ names, fs.list d = .ok names ∧ p :: due ⊆ names.map d.child :=
    h.listed _ List.mem_cons_self _ rfl
  obtain ⟨names, hl, hps⟩ := hlisted
  obtain ⟨hp, hdue⟩ := List.cons_subset.1 hps
  obtain ⟨name, hn, rfl⟩ := List.mem_map.1 hp
  have hinside := h.inside_of_some
  have hgoing : fs.UnderWay options root ⟨⟨d, some due⟩ :: callers, _, files, none⟩ :=
    h.going hl hdue
  rw [← hinside] at hgoing
  -- The set holds all places of the chain, so what is outside it makes the chain longer.
  rw [hinside, ← places_cons ⟨d, some due⟩, mem_places] at hv
  exact {
    chain := fun _ => .enter (hgoing.chain (List.cons_ne_nil _ _)) hr hl hn hd hv
    listed := List.forall_mem_cons.2 ⟨fun _ hps' => (nomatch hps'), hgoing.listed⟩
    callers := List.forall_mem_cons.2 ⟨rfl, hgoing.callers⟩
    failed := fun hf => absurd rfl hf
    inside := hgoing.inside }

/-- Every step of a walk keeps it under way. -/
theorem goes (h : fs.UnderWay options root w) (hw : fs.Goes options w w') :
    fs.UnderWay options root w' := by
  cases hw with
  | @leaves d due callers inside files failure hend =>
    have hdue : due.isSome := by
      rcases hend with hfailure | rfl
      · exact h.failed hfailure _ List.mem_cons_self
      · rfl
    obtain ⟨ps, rfl⟩ := Option.isSome_iff_exists.1 hdue
    rw [h.inside_erase]
    exact h.ended
  | fails hl =>
    rw [h.inside_of_none]
    exact h.ended
  | lists hl =>
    rw [h.inside_of_none]
    exact h.going hl (List.Subset.refl _)
  | begins hr hd hv => exact h.begun hr hd hv
  | passes =>
    obtain ⟨names, hl, hps⟩ := h.listed _ List.mem_cons_self _ rfl
    rw [h.inside_of_some]
    exact h.going hl (List.cons_subset.1 hps).2

theorem reaches (h : fs.UnderWay options root w) (hw : Reaches (fs.step options) w w') :
    fs.UnderWay options root w' := by
  induction hw with
  | refl => exact h
  | tail _ hstep ih => exact ih.goes (goes_of_step hstep)

/-- There are no more calls at a time than there are real directories. -/
theorem length_calls_le (h : fs.UnderWay options root w) :
    w.calls.length ≤ {l | fs.hasDirectory l = true}.ncard := by
  rcases hcalls : w.calls with _ | ⟨call, callers⟩
  · exact Nat.zero_le _
  · have hc := h.chain (by rw [hcalls]; exact List.cons_ne_nil _ _)
    rw [hcalls] at hc
    rw [← List.length_map (f := Call.directory)]
    exact hc.length_le

end UnderWay

/-! ## Ends -/

end FileSystem

end KeyAudit
