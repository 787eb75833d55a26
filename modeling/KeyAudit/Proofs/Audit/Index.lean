import Mathlib
import KeyAudit.Command
import KeyAudit.Proofs.Audit.Trace

/-!
# With and without an index

An index is made before the first key is checked, while an audit without an index walks
through the project for every key. In a file system that does not change nobody can tell
them apart by their reports, unless the walk is refused: with an index an audit then
fails at once, and without one it fails with its first key (`report_index`). By then it
has reported no more than that the value of this key is empty, and an audit that has no
key to check does not fail at all.
-/

namespace KeyAudit

/-- Two reports differ in the log at most. -/
def Report.Agrees (r s : Report) : Prop := r.events = s.events ∧ r.outcome = s.outcome

namespace Config

/-- The same audit with an index or without one. -/
def withIndex (c : Config) (useIndex : Bool) : Config := { c with useIndex }

/-- The summary of an audit that meets a directory that cannot be listed before it has
    checked a key. -/
def stoppedSummary (c : Config) (directory : Path) (warnings : List Finding) : Summary where
  errors := ["Could not open directory " ++ directory.toText ++ "."]
  warnings := warnings.map Finding.message
  source := c.source.toText
  project := c.project.toText
  keysChecked := 0
  unusedKeys := []
  emptyValueKeys := warnings.map Finding.key
  usedKeys := []

/-- An audit stops at a directory before it has checked a key; it has reported some
    warnings. -/
structure StopsAt (c : Config) (r : Report) (directory : Path) (warnings : List Finding) :
    Prop where
  events : r.events = warnings
  outcome : r.outcome = .ok ⟨"Could not open directory " ++ directory.toText ++ ".", false,
    (c.stoppedSummary directory warnings).members⟩

variable {c : Config} {fs : FileSystem}

/-! ## The same reports -/

/-- What keeps an audit from starting does so before an index would be made. -/
theorem agrees_of_obstacle (ho : c.obstacle? fs ≠ .ok none) :
    ((c.withIndex false).report fs).Agrees ((c.withIndex true).report fs) := by
  have hobstacle : ∀ b, (c.withIndex b).obstacle? fs = c.obstacle? fs := fun _ => rfl
  cases h : c.obstacle? fs with
  | error error =>
    rw [report_of_error ((hobstacle false).trans h), report_of_error ((hobstacle true).trans h)]
    exact ⟨rfl, rfl⟩
  | ok obstacle =>
    cases obstacle with
    | none => exact absurd h ho
    | some ending =>
      rw [report_of_obstacle ((hobstacle false).trans h),
        report_of_obstacle ((hobstacle true).trans h)]
      exact ⟨rfl, rfl⟩

/-- A walk that does not fail gives the same findings to both. -/
theorem agrees_of_complete (ho : c.obstacle? fs = .ok none) (hw : (c.walk fs).failure = none) :
    ((c.withIndex false).report fs).Agrees ((c.withIndex true).report fs) := by
  have hs := unusable?_source ho
  -- The index decides on the method to count, and on nothing that is found.
  have htrace : ∀ b, ((c.withIndex b).trace fs).findings = c.findings fs ∧
      ((c.withIndex b).trace fs).failure = none := fun b =>
    @trace_of_complete (c.withIndex b) fs hs hw
  have hevents : ∀ b, ((c.withIndex b).report fs).events = (c.findings fs).filter c.reports :=
    fun b => by
      rw [@events_report (c.withIndex b) fs ho, (htrace b).1]
      rfl
  have houtcome : ∀ b, ((c.withIndex b).report fs).outcome = .ok (Ending.complete.outcome
      ((c.findings fs).foldl (Summary.add c.verbose) c.blankSummary)) := fun b => by
    rw [@outcome_report (c.withIndex b) fs ho, (htrace b).1, Trace.ending, (htrace b).2]
    rfl
  exact ⟨(hevents false).trans (hevents true).symm,
    (houtcome false).trans (houtcome true).symm⟩

/-! ## Walks that are refused -/

/-- An audit whose trace has warnings only, and then fails, has checked no key. -/
theorem stopsAt_of_trace {u : Unlistable} {warnings : List Finding}
    (ho : c.obstacle? fs = .ok none) (hkind : ∀ f ∈ warnings, f.kind = .emptyValue)
    (ht : (c.trace fs).findings = warnings ∧ (c.trace fs).failure = some (.unlistable u)) :
    c.StopsAt (c.report fs) u.path warnings := by
  constructor
  · rw [events_report ho, ht.1]
    exact filter_reports_of_warnings c hkind
  · rw [outcome_report ho, ht.1, Summary.foldl_add_warnings _ _ hkind, Trace.ending, ht.2]
    rfl

/-- An audit with an index stops before its first entry. -/
theorem stopsAt_indexed {u : Unlistable} (ho : c.obstacle? fs = .ok none)
    (hw : (c.walk fs).failure = some u) :
    c.StopsAt ((c.withIndex true).report fs) u.path [] := by
  have hp := unusable?_project ho
  have ht := @trace_of_failure_indexed (c.withIndex true) fs u rfl hp hw
  obtain ⟨hevents, houtcome⟩ := @stopsAt_of_trace (c.withIndex true) fs u [] ho
    (fun f hf => absurd hf List.not_mem_nil) ht
  exact ⟨hevents, houtcome⟩

/-- An audit without an index stops at the key of its first entry. -/
theorem stopsAt_plain {u : Unlistable} {e : Entry} {es : List Entry}
    (ho : c.obstacle? fs = .ok none) (hw : (c.walk fs).failure = some u)
    (he : fs.entriesAt c.reportEmptyValues c.source = e :: es) :
    c.StopsAt ((c.withIndex false).report fs) u.path e.warnings := by
  have ht := @trace_of_failure (c.withIndex false) fs u e es rfl (unusable?_source ho)
    (unusable?_project ho) hw he
  obtain ⟨hevents, houtcome⟩ := @stopsAt_of_trace (c.withIndex false) fs u e.warnings ho
    (fun f hf => Entry.kind_of_mem_warnings hf) ht
  exact ⟨hevents, houtcome⟩

/-- An audit that has no key to count is complete, whatever becomes of the walk. -/
theorem report_of_no_entries (ho : c.obstacle? fs = .ok none)
    (he : fs.entriesAt c.reportEmptyValues c.source = []) :
    ((c.withIndex false).report fs).events = [] ∧
      ((c.withIndex false).report fs).outcome =
        .ok ⟨"finished!", true, c.blankSummary.members⟩ := by
  have hs := unusable?_source ho
  obtain ⟨hfindings, hfailure⟩ := @trace_of_no_entries (c.withIndex false) fs rfl hs he
  constructor
  · rw [@events_report (c.withIndex false) fs ho, hfindings]
    rfl
  · rw [@outcome_report (c.withIndex false) fs ho, hfindings, Trace.ending, hfailure]
    rfl

/-- What an index changes: nothing about the announcement, and nothing about the report,
    unless the audit starts and its walk is refused. Then an audit with an index stops
    with nothing reported, and one without an index stops at its first entry, with no more
    reported than that its value is empty; without any entry it is complete. -/
theorem report_index (c : Config) (fs : FileSystem) :
    (Command.audit (c.withIndex false)).announcement =
        (Command.audit (c.withIndex true)).announcement ∧
      ((c.walk fs).failure = none ∨ fs.isPresent c.source ≠ .ok true ∨
          fs.isPresent c.project ≠ .ok true →
        ((c.withIndex false).report fs).Agrees ((c.withIndex true).report fs)) ∧
      (fs.isPresent c.source = .ok true → fs.isPresent c.project = .ok true →
        ∀ u, (c.walk fs).failure = some u →
          c.StopsAt ((c.withIndex true).report fs) u.path [] ∧
          ∃ es, (fs.resourceEntries true c.source).outcome = .ok es ∧
            (es = [] → ((c.withIndex false).report fs).events = [] ∧
              ((c.withIndex false).report fs).outcome =
                .ok ⟨"finished!", true, c.blankSummary.members⟩) ∧
            ∀ e rest, es = e :: rest → c.StopsAt ((c.withIndex false).report fs) u.path
              (if c.reportEmptyValues && e.hasEmptyValue then [⟨.emptyValue, e.key, 0⟩]
                else [])) := by
  refine ⟨rfl, fun h => ?_, fun hsource hproject u hu => ?_⟩
  · by_cases ho : c.obstacle? fs = .ok none
    · obtain ⟨hsource, hproject⟩ := obstacle?_eq_none_iff.1 ho
      rcases h with hw | hs | hp
      · exact agrees_of_complete ho hw
      · exact absurd hsource hs
      · exact absurd hproject hp
    · exact agrees_of_obstacle ho
  · have ho := obstacle?_eq_none_iff.2 ⟨hsource, hproject⟩
    have hentries := fs.entriesAt_eq_map c.reportEmptyValues c.source
    refine ⟨stopsAt_indexed ho hu, fs.entriesAt true c.source,
      FileSystem.outcome_resourceEntries (FileSystem.unusable?_of_isPresent hsource) true,
      fun he => ?_, fun e rest he => ?_⟩
    · -- An entry is there or not, whether empty values are detected or not.
      rw [he, List.map_nil] at hentries
      exact report_of_no_entries ho hentries
    · rw [he, List.map_cons] at hentries
      exact stopsAt_plain ho hu hentries

/-- A project with a directory that may not be listed, and a resource file whose only
    value is empty. -/
def closed : FileSystem where
  nodes := [(["s"], .file "\"a\" = \"\";".toUTF8), (["d"], .directory),
    (["c", "d"], .directory)]
  denied := [(.list, ["c", "d"])]
  workingDirectory := []
  distinct := by decide
  named := by decide

/-- An audit of `closed` that reports empty values. -/
def closedConfig : Config where
  source := Path.ofText "s"
  project := Path.ofText "d"
  threshold := 0
  extensions := []
  reportEmptyValues := true
  verbose := false
  recursive := true
  useIndex := false

/-- Without an index, the empty value is still reported. -/
theorem report_index_closed :
    closed.isPresent closedConfig.source = .ok true ∧
      closed.isPresent closedConfig.project = .ok true ∧
      (closedConfig.walk closed).failure =
        some ⟨Path.ofText "d/c", .refused .permissionDenied "d/c"⟩ ∧
      closedConfig.StopsAt ((closedConfig.withIndex true).report closed)
        (Path.ofText "d/c") [] ∧
      closedConfig.StopsAt ((closedConfig.withIndex false).report closed)
        (Path.ofText "d/c") [⟨.emptyValue, "\"a\"", 0⟩] := by
  have hsource : closed.isPresent closedConfig.source = .ok true := by cbv
  have hproject : closed.isPresent closedConfig.project = .ok true := by cbv
  have hw : (closedConfig.walk closed).failure =
      some ⟨Path.ofText "d/c", .refused .permissionDenied "d/c"⟩ := by cbv
  have hentries : closed.resourceEntries true closedConfig.source =
      ⟨[], .ok [⟨"\"a\"", true⟩]⟩ := by cbv
  obtain ⟨-, -, h⟩ := report_index closedConfig closed
  obtain ⟨hindexed, es, hes, -, hplain⟩ := h hsource hproject _ hw
  rw [hentries] at hes
  cases hes
  exact ⟨hsource, hproject, hw, hindexed, hplain _ [] rfl⟩

end Config

end KeyAudit
