import Mathlib
import KeyAudit.Proofs.Audit.Index
import KeyAudit.Proofs.Walk.Order

/-!
# Audits in another order

In which order directories list their entries does not matter to an audit. A walk yields
the same files in some order, the lines of which are counted, and a count has no order
(`Config.hits_eq`). So an audit reports the same whatever the order is, with an index or
without one. Only if the walk fails, and several directories cannot be listed, the order
decides which of them is named (`report_order`).
-/

namespace KeyAudit

namespace FileSystem.Reorders

variable {fs fs' : FileSystem} (h : fs.Reorders fs') {options : WalkOptions} {root : Path}
include h

theorem linesAt (p : Path) : fs'.linesAt p = fs.linesAt p := by
  rw [FileSystem.linesAt, FileSystem.linesAt, h.text]

theorem entriesAt (detect : Bool) (p : Path) : fs'.entriesAt detect p = fs.entriesAt detect p := by
  rw [FileSystem.entriesAt, FileSystem.entriesAt, h.linesAt]

/-- The lines of the same files, one file after the other. -/
theorem perm_walkedLines (hw : (fs.walk options root).failure = none) :
    (fs.walkedLines options root).Perm (fs'.walkedLines options root) := by
  rw [walkedLines, walkedLines, funext h.linesAt]
  exact (h.perm_files hw).flatMap_right _

/-- As many of them hold a key. -/
theorem countIn_walkedLines (hw : (fs.walk options root).failure = none) (key : Text) :
    countIn key (fs'.walkedLines options root) = countIn key (fs.walkedLines options root) :=
  ((h.perm_walkedLines hw).countP_eq _).symm

/-- A key is counted in both file systems or in none, and on as many lines. -/
theorem occurrences_iff (key : Text) (n : Nat) :
    (occurrences fs' options root key).outcome = .ok n ↔
      (occurrences fs options root key).outcome = .ok n := by
  cases hw : (fs.walk options root).failure with
  | none =>
    rw [outcome_occurrences hw, outcome_occurrences (h.failure_eq_none_iff.2 hw),
      h.countIn_walkedLines hw]
  | some u =>
    have hne : (fs'.walk options root).failure ≠ none := fun hn => by
      cases hw.symm.trans (h.failure_eq_none_iff.1 hn)
    obtain ⟨u', hw'⟩ := Option.ne_none_iff_exists'.1 hne
    exact iff_of_false (outcome_fold_ne_ok hw') (outcome_fold_ne_ok hw)

end FileSystem.Reorders

namespace Config

variable {c : Config} {fs fs' : FileSystem}

theorem obstacle?_eq (h : fs.Reorders fs') : c.obstacle? fs' = c.obstacle? fs := by
  rw [obstacle?, obstacle?, h.alike.isPresent, h.alike.isPresent]

theorem hits_eq (h : fs.Reorders fs') (hw : (c.walk fs).failure = none) :
    c.hits fs' = c.hits fs := funext (h.countIn_walkedLines hw)

theorem findings_eq (h : fs.Reorders fs') (hw : (c.walk fs).failure = none) :
    c.findings fs' = c.findings fs := by
  rw [findings, findings, h.entriesAt, hits_eq h hw]

/-- What keeps an audit from starting does so in both file systems. -/
theorem agrees_of_reorders_obstacle (h : fs.Reorders fs') (ho : c.obstacle? fs ≠ .ok none) :
    (c.report fs).Agrees (c.report fs') := by
  have ho' := @obstacle?_eq c fs fs' h
  cases hobstacle : c.obstacle? fs with
  | error error =>
    rw [report_of_error hobstacle, report_of_error (ho'.trans hobstacle)]
    exact ⟨rfl, rfl⟩
  | ok obstacle =>
    cases obstacle with
    | none => exact absurd hobstacle ho
    | some ending =>
      rw [report_of_obstacle hobstacle, report_of_obstacle (ho'.trans hobstacle)]
      exact ⟨rfl, rfl⟩

/-- What is found if the walk does not fail is found in both. -/
theorem agrees_of_reorders_complete (h : fs.Reorders fs') (ho : c.obstacle? fs = .ok none)
    (hw : (c.walk fs).failure = none) : (c.report fs).Agrees (c.report fs') := by
  have hs := unusable?_source ho
  have ho' := (obstacle?_eq h).trans ho
  obtain ⟨hfindings, hfailure⟩ := trace_of_complete hs hw
  obtain ⟨hfindings', hfailure'⟩ := trace_of_complete hs (h.failure_eq_none_iff.2 hw)
  rw [findings_eq h hw, ← hfindings] at hfindings'
  rw [← hfailure] at hfailure'
  constructor
  · rw [events_report ho, events_report ho', hfindings']
  · rw [outcome_report ho, outcome_report ho', hfindings', Trace.ending_congr hfailure']

/-- An audit that starts and whose walk fails stops at the directory that cannot be
    listed, with the same warnings in both, unless it has no key to count. -/
theorem stopsAt_of_reorders (h : fs.Reorders fs') (ho : c.obstacle? fs = .ok none)
    {u u' : Unlistable} (hw : (c.walk fs).failure = some u)
    (hw' : (c.walk fs').failure = some u') :
    (c.report fs).Agrees (c.report fs') ∨ ∃ warnings,
      c.StopsAt (c.report fs) u.path warnings ∧ c.StopsAt (c.report fs') u'.path warnings := by
  have ho' := (obstacle?_eq h).trans ho
  cases hi : c.useIndex with
  | true =>
    -- The walk comes first, so there are no warnings yet when it fails.
    have hc : c.withIndex true = c := by rw [withIndex, ← hi]
    have hstop := stopsAt_indexed ho hw
    have hstop' := stopsAt_indexed ho' hw'
    rw [hc] at hstop hstop'
    exact .inr ⟨[], hstop, hstop'⟩
  | false =>
    have hc : c.withIndex false = c := by rw [withIndex, ← hi]
    have hentries' := h.entriesAt c.reportEmptyValues c.source
    cases hentries : fs.entriesAt c.reportEmptyValues c.source with
    | nil =>
      -- Without a key nothing is counted, so nothing is walked.
      obtain ⟨hevents, houtcome⟩ := report_of_no_entries ho hentries
      obtain ⟨hevents', houtcome'⟩ := report_of_no_entries ho' (hentries'.trans hentries)
      rw [hc] at hevents houtcome hevents' houtcome'
      exact .inl ⟨hevents.trans hevents'.symm, houtcome.trans houtcome'.symm⟩
    | cons e es =>
      -- The walk is due with the first key, after the warnings about its entry.
      have hstop := stopsAt_plain ho hw hentries
      have hstop' := stopsAt_plain ho' hw' (hentries'.trans hentries)
      rw [hc] at hstop hstop'
      exact .inr ⟨e.warnings, hstop, hstop'⟩

/-- What the order of listing changes. A walk fails in both file systems or in none, and
    yields the same files, if it does not fail; a key is counted on as many lines; and an
    audit gives the same report. If its walk fails, the report may name another directory
    that cannot be listed, and is the same otherwise. -/
theorem report_order (fs fs' : FileSystem) (h : fs.Reorders fs') :
    (∀ options root,
      ((fs'.walk options root).failure = none ↔ (fs.walk options root).failure = none) ∧
      ((fs'.walk options root).IsRefused ↔ (fs.walk options root).IsRefused) ∧
      ((fs.walk options root).failure = none →
        (fs.walk options root).files.Perm (fs'.walk options root).files) ∧
      ∀ key n, (occurrences fs' options root key).outcome = .ok n ↔
        (occurrences fs options root key).outcome = .ok n) ∧
    ∀ c : Config,
      ((c.walk fs).failure = none → (c.report fs).Agrees (c.report fs')) ∧
      ∀ u u', (c.walk fs).failure = some u → (c.walk fs').failure = some u' →
        (c.report fs).Agrees (c.report fs') ∨
        ∃ warnings,
          (c.StopsAt (c.report fs) u.path warnings ∧ fs.list u.path = .error u.error) ∧
          c.StopsAt (c.report fs') u'.path warnings ∧ fs'.list u'.path = .error u'.error := by
  refine ⟨fun options root => ⟨h.failure_eq_none_iff, h.isRefused_iff, h.perm_files,
    h.occurrences_iff⟩, fun c => ?_⟩
  by_cases ho : c.obstacle? fs = .ok none
  · refine ⟨agrees_of_reorders_complete h ho, fun u u' hw hw' => ?_⟩
    obtain ⟨-, -, hl⟩ := FileSystem.chain_of_failure hw
    obtain ⟨-, -, hl'⟩ := FileSystem.chain_of_failure hw'
    exact (stopsAt_of_reorders h ho hw hw').imp_right fun ⟨warnings, hstop, hstop'⟩ =>
      ⟨warnings, ⟨hstop, hl⟩, hstop', hl'⟩
  · have hagrees := agrees_of_reorders_obstacle h ho
    exact ⟨fun _ => hagrees, fun _ _ _ _ => .inl hagrees⟩

/-- A project with two directories that may not be listed, and another one with two files. -/
def shut : FileSystem where
  nodes := [(["s"], .file "\"k\" = \"\";".toUTF8), (["d"], .directory),
    (["a", "d"], .directory), (["b", "d"], .directory), (["e"], .directory),
    (["x", "e"], .file .empty), (["y", "e"], .file .empty)]
  denied := [(.list, ["a", "d"]), (.list, ["b", "d"])]
  workingDirectory := []
  distinct := by decide
  named := by decide

/-- The same, with everything made in the opposite order. -/
def shutReversed : FileSystem where
  nodes := shut.nodes.reverse
  denied := shut.denied
  workingDirectory := []
  distinct := by decide
  named := by decide

/-- An audit of the directories that may not be listed. -/
def shutConfig : Config where
  source := Path.ofText "s"
  project := Path.ofText "d"
  threshold := 0
  extensions := []
  reportEmptyValues := true
  verbose := false
  recursive := true
  useIndex := false

/-- The files come in opposite orders, and the audit names another directory. -/
theorem report_order_reversed :
    shut.Reorders shutReversed ∧
      (shut.walk ⟨[], true⟩ (Path.ofText "e")).failure = none ∧
      [Path.ofText "e/x", Path.ofText "e/y"].Perm [Path.ofText "e/y", Path.ofText "e/x"] ∧
      (shutConfig.walk shut).failure =
        some ⟨Path.ofText "d/a", .refused .permissionDenied "d/a"⟩ ∧
      (shutConfig.walk shutReversed).failure =
        some ⟨Path.ofText "d/b", .refused .permissionDenied "d/b"⟩ ∧
      ((shutConfig.report shut).Agrees (shutConfig.report shutReversed) ∨
        ∃ warnings, shutConfig.StopsAt (shutConfig.report shut) (Path.ofText "d/a") warnings ∧
          shutConfig.StopsAt (shutConfig.report shutReversed) (Path.ofText "d/b") warnings) := by
  have h : shut.Reorders shutReversed :=
    FileSystem.reorders_of_perm (List.reverse_perm _).symm (.refl _) rfl
  have he : shut.walk ⟨[], true⟩ (Path.ofText "e") =
      ⟨[Path.ofText "e/x", Path.ofText "e/y"], none⟩ := by cbv
  have he' : shutReversed.walk ⟨[], true⟩ (Path.ofText "e") =
      ⟨[Path.ofText "e/y", Path.ofText "e/x"], none⟩ := by cbv
  have hw : (shutConfig.walk shut).failure =
      some ⟨Path.ofText "d/a", .refused .permissionDenied "d/a"⟩ := by cbv
  have hw' : (shutConfig.walk shutReversed).failure =
      some ⟨Path.ofText "d/b", .refused .permissionDenied "d/b"⟩ := by cbv
  obtain ⟨hwalks, haudits⟩ := report_order shut shutReversed h
  have hfiles := (hwalks ⟨[], true⟩ (Path.ofText "e")).2.2.1 (by rw [he])
  rw [he, he'] at hfiles
  refine ⟨h, by rw [he], hfiles, hw, hw', ?_⟩
  obtain hagrees | ⟨warnings, hstop, hstop'⟩ := (haudits shutConfig).2 _ _ hw hw'
  · exact .inl hagrees
  · exact .inr ⟨warnings, hstop.1, hstop'.1⟩

end Config

end KeyAudit
