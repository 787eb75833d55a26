import KeyAudit.Audit.Report
import KeyAudit.Proofs.Audit.Counting

/-!
# What an audit finds

An audit of a file system that does not change carries out the checks of the entries of
its resource file, in their order. What a check finds is settled by the number of lines
that hold its key (`Check.finding`). So are the findings of a whole audit whose walk does
not fail (`Config.findings`), however it counts:

* `trace_of_complete`: these are what the audit finds, and it finds them all;
* `trace_of_failure` and `trace_of_failure_indexed`: if the walk is refused, an audit
  fails with it when its first key is to be counted, or before that, when an index is to
  be made;
* `trace_cases`: one or the other happens to every audit that starts.
-/

namespace KeyAudit

/-- How an audit ends that leaves a trace, if the findings up to its end give a
    summary. -/
def Trace.ending (t : Trace) (s : Summary) : Except AccessError Outcome :=
  match t.failure with
  | none => .ok (Ending.complete.outcome s)
  | some (.unlistable directory) => .ok ((Ending.unlistable directory.path).outcome s)
  | some (.inaccessible error) => .error error

/-- Only its failure matters for how a trace ends. -/
theorem Trace.ending_congr {t t' : Trace} (h : t.failure = t'.failure) : t.ending = t'.ending := by
  funext s
  rw [ending, ending, h]

/-- What a check finds, if keys are found on as many lines as `hits` tells. -/
def Check.finding (c : Config) (hits : Text → Nat) : Check → Finding
  | .emptyValue key => ⟨.emptyValue, key, 0⟩
  | .usage key => c.verdict key (hits key)

/-- What is found about the value of an entry. -/
def Entry.warnings (e : Entry) : List Finding :=
  if e.hasEmptyValue then [⟨.emptyValue, e.key, 0⟩] else []

/-- What is found about an entry, if keys are found on as many lines as `hits` tells. -/
def Entry.findings (c : Config) (hits : Text → Nat) (e : Entry) : List Finding :=
  e.warnings ++ [c.verdict e.key (hits e.key)]

theorem Entry.kind_of_mem_warnings {e : Entry} {f : Finding} (h : f ∈ e.warnings) :
    f.kind = .emptyValue := by
  rw [warnings] at h
  split at h
  · rw [List.mem_singleton.1 h]
  · exact absurd h List.not_mem_nil

theorem Entry.map_finding_checks (c : Config) (hits : Text → Nat) (e : Entry) :
    e.checks.map (Check.finding c hits) = e.findings c hits := by
  rw [checks, findings, warnings]
  split
  · rfl
  · rfl

variable {c : Config} {fs : FileSystem} {method : CountMethod} {u : Unlistable}

/-! ## Checks -/

/-- A check is carried out, and the others after it. -/
theorem performChecks_cons_of_ok {check : Check} {f : Finding} (due : List Check)
    (h : (check.perform fs c method).outcome = .ok f) :
    (performChecks fs c method (check :: due)).findings =
        f :: (performChecks fs c method due).findings ∧
      (performChecks fs c method (check :: due)).failure =
        (performChecks fs c method due).failure := by
  rw [performChecks, Logged.eq_mk h]
  exact ⟨rfl, rfl⟩

/-- A check that fails is the last one. -/
theorem performChecks_cons_of_error {check : Check} {e : CountError} (due : List Check)
    (h : (check.perform fs c method).outcome = .error e) :
    (performChecks fs c method (check :: due)).findings = [] ∧
      (performChecks fs c method (check :: due)).failure = some e := by
  rw [performChecks, Logged.eq_mk h]
  exact ⟨rfl, rfl⟩

theorem outcome_perform {hits : Text → Nat}
    (h : ∀ key, (c.count fs method key).outcome = .ok (hits key)) (check : Check) :
    (check.perform fs c method).outcome = .ok (check.finding c hits) := by
  cases check with
  | emptyValue key => rfl
  | usage key =>
    rw [Check.perform, Logged.outcome_bind, h]
    rfl

theorem outcome_perform_usage {e : CountError} {key : Text}
    (h : (c.count fs method key).outcome = .error e) :
    ((Check.usage key).perform fs c method).outcome = .error e := by
  rw [Check.perform, Logged.outcome_bind, h]
  rfl

/-- If every key can be counted, all checks are carried out. -/
theorem performChecks_of_counts {hits : Text → Nat}
    (h : ∀ key, (c.count fs method key).outcome = .ok (hits key)) (checks : List Check) :
    (performChecks fs c method checks).findings = checks.map (Check.finding c hits) ∧
      (performChecks fs c method checks).failure = none := by
  induction checks with
  | nil => exact ⟨rfl, rfl⟩
  | cons check due ih =>
    obtain ⟨hfindings, hfailure⟩ := performChecks_cons_of_ok due (outcome_perform h check)
    exact ⟨by rw [hfindings, ih.1, List.map_cons], hfailure.trans ih.2⟩

/-- If no key can be counted, nothing more is found than that the value of the first
    entry is empty. -/
theorem performChecks_of_error {e : CountError}
    (h : ∀ key, (c.count fs method key).outcome = .error e) (entry : Entry)
    (due : List Check) :
    (performChecks fs c method (entry.checks ++ due)).findings = entry.warnings ∧
      (performChecks fs c method (entry.checks ++ due)).failure = some e := by
  have husage := performChecks_cons_of_error due (outcome_perform_usage (h entry.key))
  rw [Entry.checks, Entry.warnings]
  split
  · -- The value comes before the usage, which is where the checks fail.
    have hempty : ((Check.emptyValue entry.key).perform fs c method).outcome =
        .ok ⟨.emptyValue, entry.key, 0⟩ := rfl
    obtain ⟨hfindings, hfailure⟩ := performChecks_cons_of_ok (.usage entry.key :: due) hempty
    refine ⟨?_, hfailure.trans husage.2⟩
    rw [List.cons_append, List.cons_append, List.nil_append, hfindings, husage.1]
  · exact husage

namespace Config

/-! ## Audits -/

/-- The path of a resource file that is there is one that a system call takes. -/
theorem unusable?_source (ho : c.obstacle? fs = .ok none) : c.source.unusable? = none :=
  FileSystem.unusable?_of_isPresent (obstacle?_eq_none_iff.1 ho).1

/-- So is the path of a project that is there. -/
theorem unusable?_project (ho : c.obstacle? fs = .ok none) : c.project.unusable? = none :=
  FileSystem.unusable?_of_isPresent (obstacle?_eq_none_iff.1 ho).2

/-- What an audit finds whose walk does not fail. -/
def findings (c : Config) (fs : FileSystem) : List Finding :=
  (fs.entriesAt c.reportEmptyValues c.source).flatMap (Entry.findings c (c.hits fs))

theorem outcome_entries (hs : c.source.unusable? = none) :
    (c.entries fs).outcome = .ok (fs.entriesAt c.reportEmptyValues c.source) := by
  have h : (fs.resourceEntries c.reportEmptyValues c.source).outcome =
      .ok (fs.entriesAt c.reportEmptyValues c.source) := FileSystem.outcome_resourceEntries hs _
  rw [entries, Logged.eq_mk h]

theorem outcome_prepare (hs : c.source.unusable? = none)
    (h : (c.countMethod fs).outcome = .ok method) :
    (c.prepare fs).outcome = .ok
      (method, (fs.entriesAt c.reportEmptyValues c.source).flatMap Entry.checks) := by
  rw [prepare, Logged.outcome_andThen, h]
  change ((c.entries fs) >>= _).outcome = _
  rw [Logged.outcome_bind, outcome_entries hs]
  rfl

theorem outcome_prepare_of_error {e : CountError}
    (h : (c.countMethod fs).outcome = .error e) : (c.prepare fs).outcome = .error e := by
  rw [prepare, Logged.outcome_andThen, h]
  rfl

theorem trace_of_prepare {checks : List Check}
    (h : (c.prepare fs).outcome = .ok (method, checks)) :
    (c.trace fs).findings = (performChecks fs c method checks).findings ∧
      (c.trace fs).failure = (performChecks fs c method checks).failure := by
  rw [trace, Logged.eq_mk h]
  exact ⟨rfl, rfl⟩

theorem trace_of_prepare_error {e : CountError} (h : (c.prepare fs).outcome = .error e) :
    (c.trace fs).findings = [] ∧ (c.trace fs).failure = some e := by
  rw [trace, Logged.eq_mk h]
  exact ⟨rfl, rfl⟩

/-- An audit whose walk does not fail finds all there is to find, with or without an
    index. -/
theorem trace_of_complete (hs : c.source.unusable? = none) (hw : (c.walk fs).failure = none) :
    (c.trace fs).findings = c.findings fs ∧ (c.trace fs).failure = none := by
  obtain ⟨method, hmethod, hcount⟩ := outcome_count hw
  obtain ⟨hfindings, hfailure⟩ := trace_of_prepare (outcome_prepare hs hmethod)
  obtain ⟨hall, hnone⟩ := performChecks_of_counts hcount
    ((fs.entriesAt c.reportEmptyValues c.source).flatMap Entry.checks)
  refine ⟨?_, hfailure.trans hnone⟩
  rw [hfindings, hall, findings, List.map_flatMap]
  simp only [Entry.map_finding_checks]

/-- An audit with an index whose walk is refused finds nothing. -/
theorem trace_of_failure_indexed (hi : c.useIndex = true) (hp : c.project.unusable? = none)
    (hw : (c.walk fs).failure = some u) :
    (c.trace fs).findings = [] ∧ (c.trace fs).failure = some (.unlistable u) :=
  trace_of_prepare_error (outcome_prepare_of_error (outcome_countMethod_of_failure hi hp hw))

/-- An audit without an index carries out its checks searching for every key. -/
theorem trace_of_search (hi : c.useIndex = false) (hs : c.source.unusable? = none) :
    (c.trace fs).findings = (performChecks fs c .search
        ((fs.entriesAt c.reportEmptyValues c.source).flatMap Entry.checks)).findings ∧
      (c.trace fs).failure = (performChecks fs c .search
        ((fs.entriesAt c.reportEmptyValues c.source).flatMap Entry.checks)).failure := by
  refine trace_of_prepare (outcome_prepare hs ?_)
  rw [countMethod, if_neg (by simp [hi])]
  rfl

/-- Without an entry there is no key to count, and the walk does not begin. -/
theorem trace_of_no_entries (hi : c.useIndex = false) (hs : c.source.unusable? = none)
    (he : fs.entriesAt c.reportEmptyValues c.source = []) :
    (c.trace fs).findings = [] ∧ (c.trace fs).failure = none := by
  obtain ⟨hfindings, hfailure⟩ := @trace_of_search c fs hi hs
  rw [he] at hfindings hfailure
  exact ⟨hfindings, hfailure⟩

/-- An audit without an index whose walk is refused fails when the key of its first entry
    is to be counted. -/
theorem trace_of_failure {e : Entry} {es : List Entry} (hi : c.useIndex = false)
    (hs : c.source.unusable? = none) (hp : c.project.unusable? = none)
    (hw : (c.walk fs).failure = some u)
    (he : fs.entriesAt c.reportEmptyValues c.source = e :: es) :
    (c.trace fs).findings = e.warnings ∧ (c.trace fs).failure = some (.unlistable u) := by
  obtain ⟨hfindings, hfailure⟩ := @trace_of_search c fs hi hs
  rw [he, List.flatMap_cons] at hfindings hfailure
  obtain ⟨hwarnings, hfails⟩ := performChecks_of_error (outcome_count_of_failure hp hw) e
    (es.flatMap Entry.checks)
  exact ⟨hfindings.trans hwarnings, hfailure.trans hfails⟩

/-- An audit that starts either comes to its end, as the walk does not fail or is not begun,
    or fails with the walk. -/
theorem trace_cases (ho : c.obstacle? fs = .ok none) :
    ((c.trace fs).failure = none ∧ ((c.walk fs).failure = none ∨
        c.useIndex = false ∧ fs.entriesAt c.reportEmptyValues c.source = [])) ∨
      ∃ u, (c.trace fs).failure = some (.unlistable u) ∧ (c.walk fs).failure = some u ∧
        (c.useIndex = true ∨ fs.entriesAt c.reportEmptyValues c.source ≠ []) := by
  have hs := unusable?_source ho
  have hp := unusable?_project ho
  cases hw : (c.walk fs).failure with
  | none => exact .inl ⟨(trace_of_complete hs hw).2, .inl rfl⟩
  | some u =>
    cases hi : c.useIndex with
    | true => exact .inr ⟨u, (trace_of_failure_indexed hi hp hw).2, rfl, .inl rfl⟩
    | false =>
      cases he : fs.entriesAt c.reportEmptyValues c.source with
      | nil => exact .inl ⟨(trace_of_no_entries hi hs he).2, .inr ⟨rfl, rfl⟩⟩
      | cons e es =>
        exact .inr ⟨u, (trace_of_failure hi hs hp hw he).2, rfl, .inr (List.cons_ne_nil e es)⟩

/-! ## Reports -/

theorem report_of_error {error : AccessError} (ho : c.obstacle? fs = .error error) :
    c.report fs = ⟨[], [], .error error⟩ := by
  rw [report, Scene.files_fileSystem, ho]

theorem report_of_obstacle {ending : Ending} (ho : c.obstacle? fs = .ok (some ending)) :
    c.report fs = ⟨obstacleRecords ending, [], .ok (ending.outcome c.blankSummary)⟩ := by
  rw [report, Scene.files_fileSystem, ho]

/-- An audit that does not start has nothing to report, whatever its settings say. -/
theorem report_of_not_start {c' : Config} (hs : c'.source = c.source) (hp : c'.project = c.project)
    (ho : c.obstacle? fs ≠ .ok none) :
    (c.report fs).events = [] ∧ c'.report fs = c.report fs := by
  have hobstacle : c'.obstacle? fs = c.obstacle? fs := by rw [obstacle?, hs, hp, obstacle?]
  have hblank : c'.blankSummary = c.blankSummary := by rw [blankSummary, hs, hp, blankSummary]
  cases h : c.obstacle? fs with
  | error error =>
    rw [report_of_error h, report_of_error (hobstacle.trans h)]
    exact ⟨rfl, rfl⟩
  | ok obstacle =>
    cases obstacle with
    | none => exact absurd h ho
    | some ending =>
      rw [report_of_obstacle h, report_of_obstacle (hobstacle.trans h), hblank]
      exact ⟨rfl, rfl⟩

/-- Warnings are always reported. -/
theorem filter_reports_of_warnings (c : Config) {findings : List Finding}
    (h : ∀ f ∈ findings, f.kind = .emptyValue) : findings.filter c.reports = findings :=
  List.filter_eq_self.2 fun f hf => by
    rw [reports, h f hf]
    rfl

/-- An audit that starts reports what it finds, however it ends. -/
theorem events_report (ho : c.obstacle? fs = .ok none) :
    (c.report fs).events = (c.trace fs).findings.filter c.reports := by
  rw [report]
  simp only [Scene.files_fileSystem, Scene.record_fileSystem, ho]
  cases (c.trace fs).failure with
  | none => rfl
  | some failure =>
    cases failure with
    | unlistable directory => rfl
    | inaccessible error => rfl

theorem outcome_report (ho : c.obstacle? fs = .ok none) :
    (c.report fs).outcome = (c.trace fs).ending
      ((c.trace fs).findings.foldl (Summary.add c.verbose) c.blankSummary) := by
  rw [report, Trace.ending]
  simp only [Scene.files_fileSystem, Scene.record_fileSystem, ho]
  cases (c.trace fs).failure with
  | none => rfl
  | some failure =>
    cases failure with
    | unlistable directory => rfl
    | inaccessible error => rfl

end Config

end KeyAudit
