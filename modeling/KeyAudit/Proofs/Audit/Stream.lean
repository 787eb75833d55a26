import KeyAudit.Audit.Run
import KeyAudit.Proofs.Audit.Trace

/-!
# Audits step by step

A run goes on from event to event until it ends or breaks off (`Run.Yields`). If the file
system does not change between the steps, this is one way to carry out an audit as a
whole: the events of the steps are those of its report, and the last step has the outcome
of its report (`Run.yields_report`). There is no other way for the run to go
(`Run.Yields.unique`).
-/

namespace KeyAudit

namespace Run

/-- The events of a run, one for each step but the last, and how the last one ends. -/
inductive Yields (fs : FileSystem) : Run → List Finding → Except AccessError Outcome → Prop
  | ended {run : Run} {outcome : Outcome} :
      (run.next fs).2 = .ended outcome → Yields fs run [] (.ok outcome)
  | broken {run : Run} {error : AccessError} :
      (run.next fs).2 = .broken error → Yields fs run [] (.error error)
  | event {run rest : Run} {f : Finding} {events : List Finding}
      {outcome : Except AccessError Outcome} :
      (run.next fs).2 = .event f rest → Yields fs rest events outcome →
      Yields fs run (f :: events) outcome

variable {fs : FileSystem} {c : Config} {method : CountMethod} {run run' : Run}
  {events events' : List Finding} {outcome outcome' : Except AccessError Outcome}

/-- A run goes one way only. -/
theorem Yields.unique (h : Yields fs run events outcome) (h' : Yields fs run events' outcome') :
    events = events' ∧ outcome = outcome' := by
  induction h generalizing events' with
  | ended hn =>
    cases h' with
    | ended hn' => cases hn.symm.trans hn'; exact ⟨rfl, rfl⟩
    | broken hn' => cases hn.symm.trans hn'
    | event hn' _ => cases hn.symm.trans hn'
  | broken hn =>
    cases h' with
    | ended hn' => cases hn.symm.trans hn'
    | broken hn' => cases hn.symm.trans hn'; exact ⟨rfl, rfl⟩
    | event hn' _ => cases hn.symm.trans hn'
  | event hn _ ih =>
    cases h' with
    | ended hn' => cases hn.symm.trans hn'
    | broken hn' => cases hn.symm.trans hn'
    | event hn' h' =>
      cases hn.symm.trans hn'
      obtain ⟨rfl, houtcome⟩ := ih h'
      exact ⟨rfl, houtcome⟩

/-- Nothing but its next step matters for how a run goes. -/
theorem Yields.of_next_eq (hn : (run.next fs).2 = (run'.next fs).2)
    (h : Yields fs run' events outcome) : Yields fs run events outcome := by
  cases h with
  | ended h => exact .ended (hn.trans h)
  | broken h => exact .broken (hn.trans h)
  | event h hrest => exact .event (hn.trans h) hrest

/-- A run that fails at its next step. -/
theorem yields_of_fail {s : Summary} {e : CountError} {t : Trace} (ht : t.failure = some e)
    (hn : (run.next fs).2 = fail s e) : Yields fs run [] (t.ending s) := by
  rw [Trace.ending, ht]
  cases e with
  | unlistable directory => exact .ended hn
  | inaccessible error => exact .broken hn

/-- A run with some checks before it reports what they find. -/
theorem yields_performChecks (due : List Check) (s : Summary) :
    Yields fs ⟨c, .checking method due, s⟩
      ((performChecks fs c method due).findings.filter c.reports)
      ((performChecks fs c method due).ending
        ((performChecks fs c method due).findings.foldl (Summary.add c.verbose) s)) := by
  induction due generalizing s with
  | nil => exact .ended rfl
  | cons check due ih =>
    cases hp : (check.perform fs c method).outcome with
    | error e =>
      obtain ⟨hfindings, hfailure⟩ := performChecks_cons_of_error due hp
      rw [hfindings]
      refine yields_of_fail hfailure ?_
      simp only [next, advance]
      rw [Logged.eq_mk hp]
      rfl
    | ok f =>
      obtain ⟨hfindings, hfailure⟩ := performChecks_cons_of_ok due hp
      rw [hfindings, Trace.ending_congr hfailure, List.foldl_cons]
      by_cases hr : c.reports f = true
      · rw [List.filter_cons_of_pos hr]
        refine .event ?_ (ih (s.add c.verbose f))
        simp only [next, advance]
        rw [Logged.eq_mk hp]
        simp only [hr, if_true]
      · -- The same step goes on with the checks that are due.
        rw [List.filter_cons_of_neg hr]
        refine (ih (s.add c.verbose f)).of_next_eq ?_
        simp only [next, advance]
        rw [Logged.eq_mk hp]
        simp only [hr, Scene.record_fileSystem]
        rfl

/-- An audit that starts goes on like its checks. -/
theorem yields_of_start (ho : c.obstacle? fs = .ok none) :
    Yields fs (start c) ((c.trace fs).findings.filter c.reports)
      ((c.trace fs).ending
        ((c.trace fs).findings.foldl (Summary.add c.verbose) c.blankSummary)) := by
  cases hp : (c.prepare fs).outcome with
  | error e =>
    obtain ⟨hfindings, hfailure⟩ := Config.trace_of_prepare_error hp
    rw [hfindings]
    refine yields_of_fail hfailure ?_
    simp only [next, start, Scene.files_fileSystem, Scene.record_fileSystem, ho]
    rw [Logged.eq_mk hp]
    rfl
  | ok prepared =>
    obtain ⟨hfindings, hfailure⟩ := Config.trace_of_prepare hp
    rw [hfindings, Trace.ending_congr hfailure]
    refine (yields_performChecks prepared.2 c.blankSummary).of_next_eq ?_
    simp only [next, start, Scene.files_fileSystem, Scene.record_fileSystem, ho]
    rw [Logged.eq_mk hp]

/-- Step by step, an audit comes to its report. -/
theorem yields_report (c : Config) (fs : FileSystem) :
    Yields fs (start c) (c.report fs).events (c.report fs).outcome := by
  by_cases ho : c.obstacle? fs = .ok none
  · rw [Config.events_report ho, Config.outcome_report ho]
    exact yields_of_start ho
  · cases h : c.obstacle? fs with
    | error error =>
      rw [Config.report_of_error h]
      exact .broken (by simp only [next, start, Scene.files_fileSystem, h])
    | ok obstacle =>
      cases obstacle with
      | none => exact absurd h ho
      | some ending =>
        rw [Config.report_of_obstacle h]
        exact .ended (by simp only [next, start, Scene.files_fileSystem, h])

end Run

end KeyAudit
