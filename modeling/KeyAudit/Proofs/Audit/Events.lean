import Mathlib
import KeyAudit.Audit.Report

/-!
# Events and summaries

An audit reports its findings as events while it collects them in its summary, and it may
end before all keys are checked. Whoever has seen the events knows the summary
(`Summary.Collects`): the unused and the used keys, the empty values and the warnings are
what the events up to now add up to. Only keys that are used may be checked without an
event, so their number is known from the events if these are reported too.

* `Summary.Collects.add`: the next finding keeps it so;
* `Config.collects_foldl`: so it is so after all findings of an audit, however many there
  are;
* `Config.ends_of_report`: however an audit ends, its outcome has the summary that its
  events add up to, in any scene.
-/

namespace KeyAudit

/-- The keys of the events of a kind, in the order in which they first come, with their
    latest counts. -/
def collected (kind : FindingKind) (events : List Finding) : List (Text × Int) :=
  (events.filter fun f => f.kind = kind).foldl (fun pairs f => assign f.key f.count pairs) []

/-- The events about empty values. -/
def emptyValues (events : List Finding) : List Finding :=
  events.filter fun f => f.kind = .emptyValue

/-- The number of events of a kind. -/
def countOf (kind : FindingKind) (events : List Finding) : Nat :=
  events.countP fun f => f.kind = kind

/-- A summary holds what some events tell, in an audit that reports used keys or does not. -/
structure Summary.Collects (verbose : Bool) (events : List Finding) (s : Summary) : Prop where
  unusedKeys : s.unusedKeys = collected .unused events
  usedKeys : s.usedKeys = collected .used events
  emptyValueKeys : s.emptyValueKeys = (emptyValues events).map Finding.key
  warnings : s.warnings = (emptyValues events).map Finding.message
  /-- If used keys are reported, there is an event for every key that is checked. -/
  keysChecked : verbose = true → s.keysChecked = countOf .unused events + countOf .used events
  /-- In any case a key is checked for every event about an unused one. -/
  unused_le_keysChecked : countOf .unused events ≤ s.keysChecked

/-! ## Single events -/

/-- An event of the kind that is collected gives its key its count. -/
theorem collected_snoc (kind : FindingKind) (events : List Finding) (f : Finding) :
    collected kind (events ++ [f]) =
      if f.kind = kind then assign f.key f.count (collected kind events)
      else collected kind events := by
  rw [collected, List.filter_append, List.foldl_append, List.filter_singleton, collected]
  by_cases h : f.kind = kind
  · rw [if_pos h, decide_eq_true h]
    rfl
  · rw [if_neg h, decide_eq_false h]
    rfl

theorem emptyValues_snoc (events : List Finding) (f : Finding) :
    emptyValues (events ++ [f]) =
      if f.kind = .emptyValue then emptyValues events ++ [f] else emptyValues events := by
  rw [emptyValues, List.filter_append, List.filter_singleton, emptyValues]
  by_cases h : f.kind = .emptyValue
  · rw [if_pos h, decide_eq_true h]
    rfl
  · rw [if_neg h, decide_eq_false h]
    exact List.append_nil _

theorem countOf_snoc (kind : FindingKind) (events : List Finding) (f : Finding) :
    countOf kind (events ++ [f]) = countOf kind events + if f.kind = kind then 1 else 0 := by
  rw [countOf, List.countP_append, List.countP_singleton, countOf]
  simp only [decide_eq_true_eq]

namespace Summary

variable {s : Summary} {events : List Finding} {verbose : Bool}

theorem collects_blank (verbose : Bool) (source project : Text) :
    (blank source project).Collects verbose [] where
  unusedKeys := rfl
  usedKeys := rfl
  emptyValueKeys := rfl
  warnings := rfl
  keysChecked _ := rfl
  unused_le_keysChecked := Int.le_refl 0

/-- Findings are no diagnostics. -/
theorem errors_foldl_add (verbose : Bool) (s : Summary) (findings : List Finding) :
    (findings.foldl (add verbose) s).errors = s.errors := by
  induction findings generalizing s with
  | nil => rfl
  | cons f findings ih =>
    rw [List.foldl_cons, ih, add]
    cases f.kind <;> rfl

/-- Findings leave the paths as they are. -/
theorem paths_foldl_add (verbose : Bool) (s : Summary) (findings : List Finding) :
    (findings.foldl (add verbose) s).source = s.source ∧
      (findings.foldl (add verbose) s).project = s.project := by
  induction findings generalizing s with
  | nil => exact ⟨rfl, rfl⟩
  | cons f findings ih =>
    obtain ⟨hsource, hproject⟩ := ih (s.add verbose f)
    rw [List.foldl_cons, hsource, hproject, add]
    cases f.kind <;> exact ⟨rfl, rfl⟩

namespace Collects

/-- A diagnostic is no event. -/
theorem fail (h : s.Collects verbose events) (message : Text) :
    (s.fail message).Collects verbose events := { h with }

/-- A finding that is reported is one more event, and goes into the summary. -/
theorem add_of_event (h : s.Collects verbose events) {f : Finding}
    (hf : f.kind = .used → verbose = true) :
    (s.add verbose f).Collects verbose (events ++ [f]) := by
  obtain ⟨hunused, hused, hempty, hwarnings, hchecked, hle⟩ := h
  -- What is collected of the other kinds stays as it is.
  cases hk : f.kind with
  | emptyValue =>
    constructor <;>
      simp [add, collected_snoc, emptyValues_snoc, countOf_snoc, hk, hunused, hused, hempty,
        hwarnings]
    · exact hchecked
    · exact hle
  | unused =>
    constructor <;>
      simp [add, collected_snoc, emptyValues_snoc, countOf_snoc, hk, hunused, hused, hempty,
        hwarnings]
    · exact fun hv => by rw [hchecked hv]; omega
    · exact hle
  | used =>
    have hv := hf hk
    constructor <;>
      simp [add, collected_snoc, emptyValues_snoc, countOf_snoc, hk, hunused, hused, hempty,
        hwarnings, hv]
    · rw [hchecked hv, Int.add_assoc]
    · exact Int.le_add_one hle

/-- A used key that is not reported is checked, and nothing else is known of it. -/
theorem add_of_used (h : s.Collects false events) {f : Finding} (hf : f.kind = .used) :
    (s.add false f).Collects false events := by
  rw [add, hf]
  exact { h with
    keysChecked := fun hv => absurd hv Bool.false_ne_true
    unused_le_keysChecked := Int.le_add_one h.unused_le_keysChecked }

end Collects

end Summary

namespace Config

variable {c : Config} {events : List Finding} {s : Summary}

/-- The next finding goes into the summary, and is one more event if it is reported. -/
theorem collects_add (h : s.Collects c.verbose events) (f : Finding) :
    (s.add c.verbose f).Collects c.verbose (events ++ [f].filter c.reports) := by
  by_cases hr : c.reports f = true
  · rw [List.filter_cons_of_pos hr]
    refine h.add_of_event fun hk => ?_
    rw [reports, hk] at hr
    exact hr
  · rw [List.filter_cons_of_neg hr, List.filter_nil, List.append_nil]
    -- Only used keys are not reported, and only if none of them is.
    simp only [reports, Bool.or_eq_true, bne_iff_ne, not_or, not_not, Bool.not_eq_true] at hr
    rw [hr.2] at h ⊢
    exact h.add_of_used hr.1

/-- All findings of an audit go into its summary, and its events are those that are
    reported. -/
theorem collects_foldl (c : Config) (findings : List Finding) :
    (findings.foldl (Summary.add c.verbose) c.blankSummary).Collects c.verbose
      (findings.filter c.reports) := by
  induction findings using List.reverseRecOn with
  | nil => exact Summary.collects_blank ..
  | append_singleton findings f ih =>
    rw [List.foldl_append, List.filter_append]
    exact collects_add ih f

/-- However an audit ends, in whatever scene, its outcome sums up some findings, and its events
    are those of them that are reported. If the audit has not started, there are none. -/
theorem findings_of_report {σ : Type} [Scene σ] {c : Config} {s : σ} {o : Outcome}
    (h : (c.report s).outcome = .ok o) :
    ∃ (ending : Ending) (findings : List Finding),
      o = ending.outcome (findings.foldl (Summary.add c.verbose) c.blankSummary) ∧
      (∀ message, ending ≠ .misconfigured message) ∧
      (c.report s).events = findings.filter c.reports ∧
      (c.obstacle? (Scene.files s) ≠ .ok none → findings = []) := by
  unfold report at h ⊢
  cases ho : c.obstacle? (Scene.files s) with
  | error error => rw [ho] at h; cases h
  | ok obstacle =>
    rw [ho] at h
    cases obstacle with
    | some ending =>
      cases h
      refine ⟨ending, [], rfl, fun message hm => ?_, rfl, fun _ => rfl⟩
      rcases obstacle?_eq_some ho with rfl | rfl
      · cases hm
      · cases hm
    | none =>
      dsimp only at h ⊢
      cases hf : (c.trace (Scene.record s [.started c])).failure with
      | none =>
        rw [hf] at h
        cases h
        exact ⟨.complete, _, rfl, (fun _ hm => by cases hm), rfl, fun hne => absurd rfl hne⟩
      | some failure =>
        rw [hf] at h
        cases failure with
        | inaccessible error => cases h
        | unlistable directory =>
          cases h
          exact ⟨.unlistable directory.path, _, rfl, (fun _ hm => by cases hm), rfl,
            fun hne => absurd rfl hne⟩

/-- The outcome has the summary that the events add up to. If the audit has not started, there
    are no events, and no key has been checked. -/
theorem ends_of_report {σ : Type} [Scene σ] {c : Config} {s : σ} {o : Outcome}
    (h : (c.report s).outcome = .ok o) :
    ∃ (ending : Ending) (summary : Summary), o = ending.outcome summary ∧
      (∀ message, ending ≠ .misconfigured message) ∧ summary.errors = [] ∧
      summary.Collects c.verbose (c.report s).events ∧
      (c.obstacle? (Scene.files s) ≠ .ok none →
        (c.report s).events = [] ∧ summary.keysChecked = 0) := by
  obtain ⟨ending, findings, ho, hmis, hevents, hstart⟩ := findings_of_report h
  rw [hevents]
  refine ⟨ending, _, ho, hmis, Summary.errors_foldl_add c.verbose c.blankSummary findings,
    collects_foldl c findings, fun hobstacle => ?_⟩
  rw [hstart hobstacle]
  exact ⟨rfl, rfl⟩

end Config

end KeyAudit
