import Mathlib
import KeyAudit.Proofs.Command.Status
import KeyAudit.Proofs.Json.Writing

/-!
# The output of commands

The output of a command is its summary as a value, in which nothing of it is lost
(`Summary.members_injective`). Names come once in it, as a key that is found again takes the place
that it has (`Summary.IsWhole.regular_members`), and whatever text is in it is shown in some other
way as well: the keys in the events, the warnings as events, the errors as the result, and the
paths in the announcement of the audit. So nothing in the output keeps it from being encoded if
all the rest can be (`Command.IsMade.exists_summary`); only the paths of refused settings are not
shown before.

In an output whose counts can be read there is nothing else that could not be read
(`Summary.within_members`).
-/

namespace KeyAudit

/-- A text without a half that stands alone. -/
def Text.IsWhole (s : Text) : Prop := Text.holdsHalf s = false

/-! ## Summaries as values -/

namespace Summary

/-- The keys with a count come once, and all texts are whole. -/
structure IsWhole (s : Summary) : Prop where
  errors : ∀ t ∈ s.errors, t.IsWhole
  warnings : ∀ t ∈ s.warnings, t.IsWhole
  source : s.source.IsWhole
  project : s.project.IsWhole
  unusedKeys : (s.unusedKeys.map Prod.fst).Nodup ∧ ∀ c ∈ s.unusedKeys, c.1.IsWhole
  emptyValueKeys : ∀ t ∈ s.emptyValueKeys, t.IsWhole
  usedKeys : (s.usedKeys.map Prod.fst).Nodup ∧ ∀ c ∈ s.usedKeys, c.1.IsWhole

/-- The numbers in a summary. -/
def counts (s : Summary) : List Int :=
  s.keysChecked :: (s.unusedKeys.map Prod.snd ++ s.usedKeys.map Prod.snd)

theorem stringsValue_injective : Function.Injective stringsValue := fun _ _ h =>
  List.map_injective_iff.2 (fun _ _ => Json.str.inj) (Json.arr.inj h)

theorem countsValue_injective : Function.Injective countsValue := fun _ _ h =>
  List.map_injective_iff.2 (fun c c' hc => by
    obtain ⟨hkey, hcount⟩ := Prod.mk.inj hc
    exact Prod.ext hkey (Json.int.inj hcount)) (Json.obj.inj h)

/-- Nothing in a summary is lost in its value. -/
theorem members_injective : Function.Injective members := by
  rintro ⟨⟩ ⟨⟩ h
  simp only [members, List.cons.injEq, Prod.mk.injEq, Json.str.injEq, Json.int.injEq,
    stringsValue_injective.eq_iff, countsValue_injective.eq_iff, true_and, and_true] at h
  simpa [and_assoc] using h

theorem regular_stringsValue {p : Text → Prop} {strings : List Text} (h : ∀ t ∈ strings, p t) :
    Json.Regular p (stringsValue strings) :=
  .arr fun j hj => by
    obtain ⟨t, ht, rfl⟩ := List.mem_map.1 hj
    exact .str (h t ht)

theorem regular_countsValue {p : Text → Prop} {counts : List (Text × Int)}
    (h : (counts.map Prod.fst).Nodup ∧ ∀ c ∈ counts, p c.1) :
    Json.Regular p (countsValue counts) := by
  refine .obj (by simpa [Function.comp_def] using h.1) (fun m hm => ?_) fun m hm => ?_
  · obtain ⟨c, hc, rfl⟩ := List.mem_map.1 hm
    exact h.2 c hc
  · obtain ⟨c, -, rfl⟩ := List.mem_map.1 hm
    exact .int c.2

theorem IsWhole.regular_members {s : Summary} (h : s.IsWhole) :
    Json.Regular Text.IsWhole (.obj s.members) := by
  have hnodup : (s.members.map Prod.fst).Nodup := by
    change (["errors", "warnings", "source_file_path", "project_path", "keys_checked",
      "unused_keys", "empty_value_keys", "used_keys"] : List Text).Nodup
    decide
  refine .obj hnodup ?_ ?_
  · simp only [members, List.forall_mem_cons]
    exact ⟨rfl, rfl, rfl, rfl, rfl, rfl, rfl, rfl, List.forall_mem_nil _⟩
  · simp only [members, List.forall_mem_cons]
    exact ⟨regular_stringsValue h.errors, regular_stringsValue h.warnings, .str h.source,
      .str h.project, .int _, regular_countsValue h.unusedKeys,
      regular_stringsValue h.emptyValueKeys, regular_countsValue h.usedKeys, List.forall_mem_nil _⟩

/-- Summaries are not nested deep, so it depends on their counts alone whether they can be
    read. -/
theorem within_members {s : Summary} (h : ∀ n ∈ s.counts, n.natAbs < 10 ^ Number.digitLimit) :
    (Json.obj s.members).Within Json.nestingLimit := by
  have hstrings : ∀ {depth : Nat} (strings : List Text),
      (stringsValue strings).Within (depth + 1) := fun strings => .arr fun j hj => by
    obtain ⟨t, -, rfl⟩ := List.mem_map.1 hj
    exact .str t
  have hcounts : ∀ {depth : Nat} {counts : List (Text × Int)},
      (∀ c ∈ counts, c.2.natAbs < 10 ^ Number.digitLimit) →
      (countsValue counts).Within (depth + 1) := fun hc => .obj fun m hm => by
    obtain ⟨c, hmem, rfl⟩ := List.mem_map.1 hm
    exact .int (hc c hmem)
  have hunused : ∀ c ∈ s.unusedKeys, c.2.natAbs < 10 ^ Number.digitLimit := fun c hc =>
    h c.2 (List.mem_cons_of_mem _ (List.mem_append_left _ (List.mem_map_of_mem hc)))
  have hused : ∀ c ∈ s.usedKeys, c.2.natAbs < 10 ^ Number.digitLimit := fun c hc =>
    h c.2 (List.mem_cons_of_mem _ (List.mem_append_right _ (List.mem_map_of_mem hc)))
  change Json.Within (987 + 1 + 1) _
  refine .obj ?_
  simp only [members, List.forall_mem_cons]
  exact ⟨hstrings _, hstrings _, .str _, .str _, .int (h _ List.mem_cons_self), hcounts hunused,
    hstrings _, hcounts hused, List.forall_mem_nil _⟩

end Summary

/-! ## What events tell -/

/-- A finding shows its key. -/
theorem Finding.isWhole_key {f : Finding} (h : f.message.IsWhole) : f.key.IsWhole := by
  unfold Text.IsWhole Finding.message at *
  cases hk : f.kind <;> simp_all

theorem nodup_collected (kind : FindingKind) (events : List Finding) :
    ((collected kind events).map Prod.fst).Nodup := by
  induction events using List.reverseRecOn with
  | nil => exact List.nodup_nil
  | append_singleton events f ih =>
    rw [collected_snoc]
    split
    · exact nodup_assign ih
    · exact ih

/-- A key is collected from an event about it. -/
theorem exists_event_of_mem_collected {kind : FindingKind} {events : List Finding}
    {c : Text × Int} (h : c ∈ collected kind events) : ∃ f ∈ events, f.key = c.1 := by
  have hkey : c.1 ∈ (collected kind events).map Prod.fst := List.mem_map_of_mem h
  clear h
  induction events using List.reverseRecOn with
  | nil => cases hkey
  | append_singleton events f ih =>
    have hbefore : c.1 ∈ (collected kind events).map Prod.fst →
        ∃ g ∈ events ++ [f], g.key = c.1 := fun hmem => by
      obtain ⟨g, hg, hkey⟩ := ih hmem
      exact ⟨g, List.mem_append_left _ hg, hkey⟩
    rw [collected_snoc] at hkey
    split at hkey
    · rw [map_fst_assign] at hkey
      split at hkey
      · exact hbefore hkey
      · rcases List.mem_append.1 hkey with hkey | hkey
        · exact hbefore hkey
        · exact ⟨f, by simp, (List.mem_singleton.1 hkey).symm⟩
    · exact hbefore hkey

/-- A summary holds no texts but those of its events, its errors and its paths. -/
theorem Summary.Collects.isWhole {s : Summary} {events : List Finding} {verbose : Bool}
    (h : s.Collects verbose events) (hevents : ∀ f ∈ events, f.message.IsWhole)
    (herrors : ∀ t ∈ s.errors, t.IsWhole) (hsource : s.source.IsWhole)
    (hproject : s.project.IsWhole) : s.IsWhole := by
  have hkeys : ∀ kind, ∀ c ∈ collected kind events, c.1.IsWhole := fun kind c hc => by
    obtain ⟨f, hf, hkey⟩ := exists_event_of_mem_collected hc
    exact hkey ▸ Finding.isWhole_key (hevents f hf)
  refine ⟨herrors, fun t ht => ?_, hsource, hproject, ?_, fun t ht => ?_, ?_⟩
  · rw [h.warnings] at ht
    obtain ⟨f, hf, rfl⟩ := List.mem_map.1 ht
    exact hevents f (List.mem_of_mem_filter hf)
  · rw [h.unusedKeys]
    exact ⟨nodup_collected _ _, hkeys _⟩
  · rw [h.emptyValueKeys] at ht
    obtain ⟨f, hf, rfl⟩ := List.mem_map.1 ht
    exact Finding.isWhole_key (hevents f (List.mem_of_mem_filter hf))
  · rw [h.usedKeys]
    exact ⟨nodup_collected _ _, hkeys _⟩

/-- The error of an ending is its result. -/
theorem Ending.exists_summary {e : Ending} {s : Summary} (hs : s.IsWhole)
    (hresult : (e.outcome s).result.IsWhole) :
    ∃ summary : Summary, (e.outcome s).output = summary.members ∧ summary.IsWhole := by
  by_cases hcomplete : e = .complete
  · exact ⟨s, by rw [hcomplete]; rfl, hs⟩
  · have hfail : (s.fail e.message).IsWhole := { hs with
      errors := fun t ht => by
        rcases List.mem_append.1 ht with ht | ht
        · exact hs.errors t ht
        · rw [List.mem_singleton.1 ht, ← e.result_outcome s]
          exact hresult }
    refine ⟨s.fail e.message, ?_, hfail⟩
    cases e with
    | complete => exact absurd rfl hcomplete
    | sourceMissing | projectMissing | unlistable | misconfigured => rfl

/-! ## Commands -/

namespace Command

variable {env : Environment} {fs : FileSystem} {command : Command}

/-- An audit announces its paths. -/
theorem isWhole_paths {c : Config} (h : (audit c).announcement.IsWhole) :
    c.source.toText.IsWhole ∧ c.project.toText.IsWhole := by
  have hlines : ∀ line ∈ c.banner, line.IsWhole := fun line hline => by
    refine Text.holdsHalf_eq_false_iff.2 fun d hd => ?_
    exact Text.holdsHalf_eq_false_iff.1 h d (Text.mem_join_of_mem hline hd)
  -- Each of the paths has a line of its own, behind a tab.
  have htail : ∀ {t : Text}, Text.IsWhole ("\t" ++ t) → t.IsWhole := fun ht => by
    simpa [Text.IsWhole] using ht
  exact ⟨htail (hlines _ (by simp [Config.banner])), htail (hlines _ (by simp [Config.banner]))⟩

/-- A command that has been made does not end without a result. -/
theorem IsMade.result_ne_nil {σ : Type} [Scene σ] {s : σ} {outcome : Outcome}
    (hmade : IsMade env fs command) (h : (command.perform s).outcome = .ok outcome) :
    outcome.result ≠ [] := by
  rcases hmade.audit_or_complaint with ⟨c, rfl⟩ | ⟨message, source, project, rfl, hm⟩
  · obtain ⟨ending, findings, rfl, hmis, -⟩ := Config.findings_of_report h
    rw [Ending.result_outcome]
    rcases Ending.isComplaint_message hmis with rfl | hcomplaint
    · exact List.cons_ne_nil _ _
    · exact hcomplaint.ne_nil
  · cases h
    exact hm.ne_nil

/-- A command that has been made has a summary as its output, and nothing in it keeps it from
    being encoded that is not in something that is shown, or in the paths of refused settings. -/
theorem IsMade.exists_summary {σ : Type} [Scene σ] {s : σ} {outcome : Outcome} {format : Text}
    (hmade : IsMade env fs command) (h : (command.perform s).outcome = .ok outcome)
    (hshown : Console.IsEncodable format command.announcement (command.perform s).events outcome)
    (hpaths : ∀ message source project, command = .misconfigured message source project →
      source.IsWhole ∧ project.IsWhole) :
    ∃ summary : Summary, outcome.output = summary.members ∧ summary.IsWhole := by
  rcases hmade.audit_or_complaint with ⟨c, rfl⟩ | ⟨message, source, project, rfl, -⟩
  · obtain ⟨ending, findings, rfl, -, hevents, -⟩ := Config.findings_of_report h
    obtain ⟨hsource, hproject⟩ := isWhole_paths hshown.announcement
    obtain ⟨hsame, hsame'⟩ := Summary.paths_foldl_add c.verbose c.blankSummary findings
    have hwhole : (findings.foldl (Summary.add c.verbose) c.blankSummary).IsWhole := by
      refine (Config.collects_foldl c findings).isWhole (fun f hf => ?_) (fun t ht => ?_) ?_ ?_
      · exact hshown.events f (hevents.symm ▸ hf)
      · rw [Summary.errors_foldl_add] at ht
        cases ht
      · rw [hsame]
        exact hsource
      · rw [hsame']
        exact hproject
    exact Ending.exists_summary hwhole hshown.result
  · -- Refused settings are shown by the message alone, and not by their paths.
    cases h
    obtain ⟨hsource, hproject⟩ := hpaths message source project rfl
    have hwhole : (Summary.blank source project).IsWhole :=
      (Summary.collects_blank false source project).isWhole nofun nofun hsource hproject
    exact Ending.exists_summary hwhole hshown.result

end Command

end KeyAudit
