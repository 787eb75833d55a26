import KeyAudit.Proofs.Walk.Calls

/-!
# What the calls of a walk share

All calls of a walk have access to one set, that of the directories that calls are inside. From
one call to the next it is not handed over as a value: whoever begins a call relies on finding
the set as it was when that call has ended, by whatever way.

From its beginning to its end, a call waits for those that it has begun, and its own callers wait
for it (`Goes.waits`, `UnderWay.reaches_cases`). So the set always holds the callers' places, that
of the call once it has listed its directory, and those of the calls that it waits for
(`UnderWay.inside_append`). When the call has ended, with all its entries or with the failure of
a call at any depth below it, only its callers are left, and so are their places
(`walk_inside`).
-/

open StateTransition (Reaches)

namespace KeyAudit.FileSystem

variable {fs : FileSystem} {options : WalkOptions} {root d : Path} {ps : List Path}
  {above callers : List Call} {w w' : Walker}

theorem places_append (above callers : List Call) :
    fs.places (above ++ callers) = fs.places above ∪ fs.places callers := by
  rw [places, List.map_append, List.toFinset_append]
  rfl

/-- A call that is inside its directory waits for those that it has begun, and its callers wait
    for it: a step leaves them as they are, unless it is the one with which the call ends. -/
theorem Goes.waits (h : fs.Goes options w w') (hw : w.calls = above ++ ⟨d, some ps⟩ :: callers) :
    (∃ above' ps', w'.calls = above' ++ ⟨d, some ps'⟩ :: callers) ∨ w'.calls = callers := by
  cases above with
  | nil =>
    -- The step is one of the call itself.
    cases h with
    | leaves => cases hw; exact .inr rfl
    | fails => cases hw
    | lists => cases hw
    | begins => cases hw; exact .inl ⟨[_], _, rfl⟩
    | passes => cases hw; exact .inl ⟨[], _, rfl⟩
  | cons call above =>
    cases h with
    | leaves => cases hw; exact .inl ⟨above, _, rfl⟩
    | fails => cases hw; exact .inl ⟨above, _, rfl⟩
    | lists => cases hw; exact .inl ⟨_ :: above, _, rfl⟩
    | begins => cases hw; exact .inl ⟨_ :: _ :: above, _, rfl⟩
    | passes => cases hw; exact .inl ⟨_ :: above, _, rfl⟩

namespace UnderWay

variable (h : fs.UnderWay options root w)
include h

/-- No call has failed when one begins. -/
theorem failure_eq_none (hw : w.calls = ⟨d, none⟩ :: callers) : w.failure = none := by
  by_contra hne
  have hdue := h.failed hne ⟨d, none⟩ (hw ▸ List.mem_cons_self)
  cases hdue

/-- Calls that have begun others are inside their directories. -/
theorem inside_of_callers (hcallers : ∀ call ∈ w.calls, call.due.isSome) :
    w.inside = fs.places w.calls := by
  rw [h.inside, List.filter_eq_self.2 hcallers]

/-- The set while a call is inside its directory. -/
theorem inside_append (hw : w.calls = above ++ ⟨d, some ps⟩ :: callers)
    (hcallers : ∀ call ∈ callers, call.due.isSome) :
    w.inside = insert (fs.realPath d) (fs.places callers) ∪
      fs.places (above.filter (·.due.isSome)) := by
  rw [h.inside, hw, List.filter_append, List.filter_cons_of_pos rfl,
    List.filter_eq_self.2 hcallers, places_append, places_cons, Finset.union_comm]

section

variable (hw : w.calls = ⟨d, none⟩ :: callers)
include hw

theorem callers_of_begins : ∀ call ∈ callers, call.due.isSome := by
  have hcallers := h.callers
  rwa [hw] at hcallers

theorem chain_of_begins : fs.Chain options.recursive root (d :: callers.map Call.directory) := by
  have hchain := h.chain (by rw [hw]; exact List.cons_ne_nil _ _)
  rwa [hw] at hchain

/-- The set when a call begins. -/
theorem inside_of_begins : w.inside = fs.places callers := by
  rw [h.inside, hw, List.filter_cons_of_neg (by simp),
    List.filter_eq_self.2 (h.callers_of_begins hw)]

/-- A call that begins ends with the walk from its directory, and leaves the set as it is. -/
theorem reaches_end_of_begins :
    let v := fs.walkFrom options
      (fs.realPath d :: (callers.map Call.directory).map fs.realPath) d
    Reaches (fs.step options) w ⟨callers, w.inside, w.files ++ v.files, v.failure⟩ := by
  have hinside := h.inside_of_begins hw
  have hset : insert (fs.realPath d) w.inside =
      (fs.realPath d :: (callers.map Call.directory).map fs.realPath).toFinset := by
    ext l
    rw [hinside, Finset.mem_insert, mem_places, List.mem_toFinset, List.mem_cons]
  have hend : Reaches (fs.step options) ⟨⟨d, none⟩ :: callers, w.inside, w.files, none⟩ _ :=
    reaches_end fs options _ d hset
  have hnotMem : fs.realPath d ∉ w.inside := by
    rw [hinside, mem_places]
    exact (List.nodup_cons.1 (h.chain_of_begins hw).nodup).1
  have hfailure := h.failure_eq_none hw
  rw [after_of_not_mem hnotMem] at hend
  obtain ⟨calls, inside, files, failure⟩ := w
  cases hw
  cases hfailure
  exact hend

end

/-- From where a call begins, the walk is in the call or has come to its end. -/
theorem reaches_cases (hw : w.calls = ⟨d, none⟩ :: callers)
    (hreach : Reaches (fs.step options) w w') :
    w' = w ∨ (∃ above ps, w'.calls = above ++ ⟨d, some ps⟩ :: callers) ∨
      ∃ e, Reaches (fs.step options) w e ∧ Reaches (fs.step options) e w' ∧ e.calls = callers := by
  induction hreach with
  | refl => exact .inl rfl
  | @tail v w' hv hstep ih =>
    refine .inr ?_
    rcases ih with rfl | ⟨above, ps, hcalls⟩ | ⟨e, he, hev, hcalls⟩
    · -- The first step of the call lists its directory, or is the last one.
      cases goes_of_step hstep with
      | leaves hend =>
        cases hw
        rcases hend with hfailure | hdue
        · exact absurd (h.failure_eq_none rfl) hfailure
        · cases hdue
      | fails hl => cases hw; exact .inr ⟨_, .single hstep, .refl, rfl⟩
      | lists hl => cases hw; exact .inl ⟨[], _, rfl⟩
      | begins => cases hw
      | passes => cases hw
    · exact ((goes_of_step hstep).waits hcalls).imp id fun hend =>
        ⟨w', hv.tail hstep, .refl, hend⟩
    · exact .inr ⟨e, he, hev.tail hstep, hcalls⟩

end UnderWay

/-- A call finds in the set the real locations of the directories on the way from the root to its
    caller, which are all different and not its own. Until it ends, its own has been added, and
    those of the calls that it waits for. When it has ended, with the walk from its directory or
    with the failure of this, it leaves the set as it was. -/
theorem walk_inside (fs : FileSystem) (options : WalkOptions) (root : Path) {w : Walker} {d : Path}
    {callers : List Call} (hw : Reaches (fs.step options) (begin root ∅) w)
    (hcalls : w.calls = ⟨d, none⟩ :: callers) :
    let places := (callers.map Call.directory).map fs.realPath
    (fs.Chain options.recursive root (d :: callers.map Call.directory) ∧
      (∀ l, l ∈ w.inside ↔ l ∈ places) ∧ places.Nodup ∧ fs.realPath d ∉ places) ∧
    (∀ w', Reaches (fs.step options) w w' → w' = w ∨
      (∃ above ps, w'.calls = above ++ ⟨d, some ps⟩ :: callers ∧
        w'.inside = insert (fs.realPath d) w.inside ∪ fs.places (above.filter (·.due.isSome))) ∨
      ∃ e, Reaches (fs.step options) w e ∧ Reaches (fs.step options) e w' ∧
        e.calls = callers ∧ e.inside = w.inside) ∧
    let v := fs.walkFrom options (fs.realPath d :: places) d
    Reaches (fs.step options) w ⟨callers, w.inside, w.files ++ v.files, v.failure⟩ := by
  intro places
  have h := (UnderWay.begin fs options root).reaches hw
  have hcallers := h.callers_of_begins hcalls
  have hinside := h.inside_of_begins hcalls
  have hchain := h.chain_of_begins hcalls
  obtain ⟨hd, hnodup⟩ := List.nodup_cons.1 hchain.nodup
  refine ⟨⟨hchain, fun l => ?_, hnodup, hd⟩, fun w' hreach => ?_, h.reaches_end_of_begins hcalls⟩
  · rw [hinside]
    exact mem_places
  · have h' := h.reaches hreach
    refine (h.reaches_cases hcalls hreach).imp id (Or.imp ?_ ?_)
    · rintro ⟨above, ps, hcalls'⟩
      exact ⟨above, ps, hcalls', hinside ▸ h'.inside_append hcalls' hcallers⟩
    · rintro ⟨e, he, hew, hend⟩
      refine ⟨e, he, hew, hend, ?_⟩
      rw [(h.reaches he).inside_of_callers (hend ▸ hcallers), hend, hinside]

/-- A directory with a link to another one, in which there is one that may not be listed. -/
def barred : FileSystem where
  nodes := [(["a"], .directory), (["to", "a"], .link "/b"), (["b"], .directory),
    (["c", "b"], .directory)]
  denied := [(.list, ["c", "b"])]
  workingDirectory := []
  distinct := by decide
  named := by decide

/-- The call at the link fails with the one that it begins, and is no longer inside. -/
theorem walk_inside_barred :
    let callers : List Call := [⟨Path.ofText "a", some []⟩]
    let w : Walker := ⟨⟨Path.ofText "a/to", none⟩ :: callers, {(["a"] : Location)}, [], none⟩
    Reaches (barred.step ⟨[], true⟩) (begin (Path.ofText "a") ∅) w ∧ (["b"] : Location) ∉ w.inside ∧
      Reaches (barred.step ⟨[], true⟩) w ⟨callers, {(["a"] : Location)}, [],
        some ⟨Path.ofText "a/to/c", .refused .permissionDenied "a/to/c"⟩⟩ := by
  intro callers w
  have hla : barred.list (Path.ofText "a") = .ok ["to"] := by cbv
  have hra : barred.realPath (Path.ofText "a") = (["a"] : Location) := by cbv
  have hrb : barred.realPath (Path.ofText "a/to") = (["b"] : Location) := by cbv
  have hd : barred.isDirectory (Path.ofText "a/to") = true := by cbv
  have hwalk : barred.walkFrom ⟨[], true⟩ [["b"], ["a"]] (Path.ofText "a/to") =
      .failed (Path.ofText "a/to/c") (.refused .permissionDenied "a/to/c") := by cbv
  have hw : Reaches (barred.step ⟨[], true⟩) (begin (Path.ofText "a") ∅) w := by
    have hv : barred.realPath (Path.ofText "a/to") ∉ [(["a"] : Location)] := by
      rw [hrb]
      decide
    refine .head (step_of_list hla) (.single ?_)
    rw [hra]
    exact step_of_enters rfl ⟨rfl, hd, hv⟩
  obtain ⟨⟨-, hinside, -, hfresh⟩, -, hend⟩ :=
    walk_inside barred ⟨[], true⟩ (Path.ofText "a") hw rfl
  have hplaces : (callers.map Call.directory).map barred.realPath = [(["a"] : Location)] :=
    congrArg (fun l => [l]) hra
  rw [hrb] at hfresh
  simp only [hrb, hplaces, hwalk] at hend
  exact ⟨hw, mt (hinside _).1 hfresh, hend⟩

end KeyAudit.FileSystem
