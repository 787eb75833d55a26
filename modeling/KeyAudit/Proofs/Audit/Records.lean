import Mathlib
import KeyAudit.Proofs.Audit.Complete

/-!
# What an audit logs

Every reading of the project leaves the same records: a warning for each file of the walk that
gives no lines, in the order of the walk, and an error if the walk is refused in the end
(`Config.readingRecords`). An audit reads the project once if it makes an index, and once for
each key if it does not; what comes in between is a record for each key that has been counted.
So what is in the log of an audit is settled by the walk, the entries of the resource file and
the counts of their keys:

* `records_of_success`: what an audit logs that comes to its end;
* `records_of_failure`: what an audit logs that meets a directory that cannot be listed;
* `report_records`: which of the two it is can be seen by the outcome.
-/

namespace KeyAudit

namespace FileSystem

/-- What reading a file leaves in the log: a warning, if its text cannot be had. -/
def warningsAt (fs : FileSystem) (p : Path) : List Record :=
  match fs.text p with
  | .ok _ => []
  | .error error => [.unreadable p error]

variable {fs : FileSystem} {options : WalkOptions} {root p : Path} {α : Type}

/-! ## Readings -/

theorem records_lines (hp : p.unusable? = none) : (fs.lines p).records = fs.warningsAt p := by
  rw [lines, warningsAt]
  cases ht : fs.text p with
  | ok text => rfl
  | error error =>
    cases error with
    | undecodable fault => rfl
    | inaccessible error => simp only [isRefusal_of_text hp ht, if_true]

theorem records_resourceEntries (hp : p.unusable? = none) (detect : Bool) :
    (fs.resourceEntries detect p).records = fs.warningsAt p := by
  rw [resourceEntries, Logged.records_bind_of_ok (outcome_lines hp), records_lines hp]
  exact List.append_nil _

/-- A file that gives no lines has no entries. -/
theorem entriesAt_of_error {error : TextError} (h : fs.text p = .error error) (detect : Bool) :
    fs.entriesAt detect p = [] := by
  rw [entriesAt, linesAt, h]
  rfl

/-- Where there is an entry, the file could be read. -/
theorem warningsAt_of_entries {e : Entry} {es : List Entry} {detect : Bool}
    (h : fs.entriesAt detect p = e :: es) : fs.warningsAt p = [] := by
  rw [warningsAt]
  cases ht : fs.text p with
  | ok text => rfl
  | error error => rw [entriesAt_of_error ht] at h; cases h

end FileSystem

/-- What is logged about the end of a walk. -/
def Walk.failureRecords (w : Walk) : List Record :=
  match w.failure with
  | none => []
  | some directory => if directory.error.isRefusal then [.unlistable directory] else []

namespace FileSystem

variable {fs : FileSystem} {options : WalkOptions} {root p : Path} {α : Type}

/-- Reading the files of a walk leaves a warning for each that gives no lines, and then what is
    logged about the end of the walk. -/
theorem records_go {w : Walk} {step : α → List Text → α} {ps : List Path} (a : α)
    (hps : ∀ p ∈ ps, p.unusable? = none) :
    (Walk.fold.go w step ps fs a).records = ps.flatMap fs.warningsAt ++ w.failureRecords := by
  induction ps generalizing a with
  | nil =>
    rw [Walk.fold.go, Walk.failureRecords]
    cases w.failure with
    | none => rfl
    | some directory =>
      dsimp only
      split <;> rfl
  | cons p ps ih =>
    have hp := hps p List.mem_cons_self
    have hrest := ih (step a (fs.linesAt p)) fun q hq => hps q (List.mem_cons_of_mem _ hq)
    rw [List.flatMap_cons, List.append_assoc, ← hrest, Walk.fold.go, Scene.files_fileSystem,
      Logged.eq_mk (outcome_lines hp), records_lines hp]
    rfl

theorem records_fold (step : α → List Text → α) (a : α) :
    ((fs.walk options root).fold fs step a).records =
      (fs.walk options root).files.flatMap fs.warningsAt ++
        (fs.walk options root).failureRecords :=
  records_go a fun _ hp => unusable?_of_mem_files_walk hp

end FileSystem

variable {c : Config} {fs : FileSystem} {method : CountMethod} {u : Unlistable}

namespace Config

/-- The warnings about the files of the project that give no lines, in the order of the walk. -/
def warnings (c : Config) (fs : FileSystem) : List Record :=
  (c.walk fs).files.flatMap fs.warningsAt

/-- What one reading of the project leaves in the log. -/
def readingRecords (c : Config) (fs : FileSystem) : List Record :=
  c.warnings fs ++ (c.walk fs).failureRecords

theorem readingRecords_of_complete (hw : (c.walk fs).failure = none) :
    c.readingRecords fs = c.warnings fs := by
  rw [readingRecords, Walk.failureRecords, hw]
  exact List.append_nil _

theorem readingRecords_of_failure (hp : c.project.unusable? = none)
    (hw : (c.walk fs).failure = some u) :
    c.readingRecords fs = c.warnings fs ++ [.unlistable u] := by
  rw [readingRecords, Walk.failureRecords, hw]
  simp only [FileSystem.isRefusal_of_failure hp hw, if_true]

/-- Searching for a key reads the project, whatever the key. -/
theorem records_count_search (c : Config) (fs : FileSystem) (key : Text) :
    (c.count fs .search key).records = c.readingRecords fs :=
  FileSystem.records_fold ..

theorem records_build (c : Config) (fs : FileSystem) :
    (LineIndex.build fs c.walkOptions c.project).records = c.readingRecords fs :=
  FileSystem.records_fold ..

end Config

/-! ## Checks -/

/-- What checking an entry leaves in the log, if counting a key leaves some records. -/
def Entry.records (counting : List Record) (hits : Text → Nat) (e : Entry) : List Record :=
  counting ++ [.counted e.key (hits e.key)]

/-- What a check leaves in the log, if counting a key leaves some records. -/
def Check.records (counting : List Record) (hits : Text → Nat) : Check → List Record
  | .emptyValue _ => []
  | .usage key => counting ++ [.counted key (hits key)]

theorem Entry.flatMap_records_checks (counting : List Record) (hits : Text → Nat) (e : Entry) :
    e.checks.flatMap (Check.records counting hits) = e.records counting hits := by
  rw [checks, records]
  split
  · simp [Check.records]
  · simp [Check.records]

section

variable {counting : List Record} {hits : Text → Nat}

theorem records_perform (h : ∀ key, (c.count fs method key).outcome = .ok (hits key))
    (hc : ∀ key, (c.count fs method key).records = counting) (check : Check) :
    (check.perform fs c method).records = check.records counting hits := by
  cases check with
  | emptyValue key => rfl
  | usage key =>
    rw [Check.perform, Logged.records_bind_of_ok (h key), hc]
    rfl

/-- One check after the other adds its records. -/
theorem records_performChecks (h : ∀ key, (c.count fs method key).outcome = .ok (hits key))
    (hc : ∀ key, (c.count fs method key).records = counting) (checks : List Check) :
    (performChecks fs c method checks).records =
      checks.flatMap (Check.records counting hits) := by
  induction checks with
  | nil => rfl
  | cons check due ih =>
    rw [List.flatMap_cons, ← ih, ← records_perform h hc, performChecks,
      Logged.eq_mk (outcome_perform h check)]
    rfl

/-- If no key can be counted, the first entry leaves no more than the count that fails. -/
theorem records_performChecks_of_error {e : CountError}
    (h : ∀ key, (c.count fs method key).outcome = .error e)
    (hc : ∀ key, (c.count fs method key).records = counting) (entry : Entry)
    (due : List Check) :
    (performChecks fs c method (entry.checks ++ due)).records = counting := by
  have husage : (performChecks fs c method (.usage entry.key :: due)).records = counting := by
    have hrecords : ((Check.usage entry.key).perform fs c method).records = counting := by
      rw [Check.perform, Logged.records_bind_of_error (h entry.key), hc]
    rw [performChecks, Logged.eq_mk (outcome_perform_usage (h entry.key)), hrecords]
    rfl
  rw [Entry.checks]
  split
  · exact husage
  · exact husage

end

namespace Config

/-! ## Traces -/

/-- What is logged before the first key is checked: what is read for an index, and what the
    resource file leaves. -/
def preparationRecords (c : Config) (fs : FileSystem) : List Record :=
  (if c.useIndex then
    c.warnings fs ++ [.indexed (fs.walkedLines c.walkOptions c.project).length
      (c.walk fs).files.length]
  else []) ++ fs.warningsAt c.source

/-- What counting one key leaves in the log. -/
def countingRecords (c : Config) (fs : FileSystem) : List Record :=
  if c.useIndex then [] else c.warnings fs

/-- What is logged about some entries. -/
def entryRecords (c : Config) (fs : FileSystem) (es : List Entry) : List Record :=
  es.flatMap (Entry.records (c.countingRecords fs) (c.hits fs))

theorem records_entries (hs : c.source.unusable? = none) :
    (c.entries fs).records = fs.warningsAt c.source := by
  have hrecords : (fs.resourceEntries c.reportEmptyValues c.source).records =
      fs.warningsAt c.source := FileSystem.records_resourceEntries hs _
  rw [entries, Logged.eq_mk (FileSystem.outcome_resourceEntries hs _), hrecords]

theorem records_prepare (hs : c.source.unusable? = none)
    (h : (c.countMethod fs).outcome = .ok method) :
    (c.prepare fs).records = (c.countMethod fs).records ++ fs.warningsAt c.source := by
  change ((c.countMethod fs) >>= _).records = _
  rw [Logged.records_bind_of_ok h]
  change _ ++ ((c.entries fs) >>= _).records = _
  rw [Logged.records_bind_of_ok (outcome_entries hs), records_entries hs]
  exact congrArg (_ ++ ·) (List.append_nil _)

theorem records_prepare_of_error {e : CountError} (h : (c.countMethod fs).outcome = .error e) :
    (c.prepare fs).records = (c.countMethod fs).records := by
  change ((c.countMethod fs) >>= _).records = _
  exact Logged.records_bind_of_error h _

theorem records_trace (hs : c.source.unusable? = none)
    (h : (c.countMethod fs).outcome = .ok method) :
    (c.trace fs).records = (c.countMethod fs).records ++ fs.warningsAt c.source ++
      (performChecks fs c method
        ((fs.entriesAt c.reportEmptyValues c.source).flatMap Entry.checks)).records := by
  rw [trace, Logged.eq_mk (outcome_prepare hs h), ← records_prepare hs h]
  rfl

theorem records_trace_of_error {e : CountError} (h : (c.countMethod fs).outcome = .error e) :
    (c.trace fs).records = (c.countMethod fs).records := by
  rw [trace, Logged.eq_mk (outcome_prepare_of_error h), ← records_prepare_of_error h]
  rfl

/-- Without an index, there is nothing to prepare. -/
theorem countMethod_of_search (hi : c.useIndex = false) :
    c.countMethod fs = ⟨[], .ok .search⟩ := by
  rw [countMethod, if_neg (by simp [hi])]
  rfl

/-- An index is made in one reading. -/
theorem records_countMethod (hw : (c.walk fs).failure = none) :
    (c.countMethod fs).records ++ fs.warningsAt c.source = c.preparationRecords fs := by
  rw [preparationRecords]
  cases hi : c.useIndex with
  | false => rw [countMethod_of_search hi]; rfl
  | true =>
    have hlogged : ((Logged.log (.indexed (fs.walkedLines c.walkOptions c.project).length
        (c.walk fs).files.length) : Logged CountError Unit) >>= fun _ =>
          pure (CountMethod.index ⟨fs.walkedLines c.walkOptions c.project,
            (c.walk fs).files.length⟩)).records =
              [.indexed (fs.walkedLines c.walkOptions c.project).length
                (c.walk fs).files.length] := rfl
    rw [countMethod, if_pos hi, Logged.records_bind_of_ok (FileSystem.outcome_build hw),
      records_build, readingRecords_of_complete hw]
    rfl

/-- Whichever method an audit has to count, counting a key leaves the same records. -/
theorem records_count (hw : (c.walk fs).failure = none)
    (h : (c.countMethod fs).outcome = .ok method) (key : Text) :
    (c.count fs method key).records = c.countingRecords fs := by
  rw [countingRecords]
  cases hi : c.useIndex with
  | false =>
    rw [countMethod_of_search hi] at h
    cases h
    rw [records_count_search, readingRecords_of_complete hw]
    rfl
  | true =>
    rw [countMethod, if_pos hi, Logged.outcome_bind, FileSystem.outcome_build hw] at h
    cases h
    rfl

/-- What an audit logs whose walk does not fail. -/
theorem records_trace_of_complete (hs : c.source.unusable? = none)
    (hw : (c.walk fs).failure = none) :
    (c.trace fs).records = c.preparationRecords fs ++
      c.entryRecords fs (fs.entriesAt c.reportEmptyValues c.source) := by
  obtain ⟨method, hmethod, hcount⟩ := outcome_count hw
  rw [records_trace hs hmethod, records_countMethod hw,
    records_performChecks hcount (records_count hw hmethod), List.flatMap_assoc, entryRecords]
  simp only [Entry.flatMap_records_checks]

/-- Without an entry there is nothing to count, and the walk does not begin. -/
theorem records_trace_of_no_entries (hi : c.useIndex = false) (hs : c.source.unusable? = none)
    (he : fs.entriesAt c.reportEmptyValues c.source = []) :
    (c.trace fs).records = c.preparationRecords fs ++ c.entryRecords fs [] := by
  have hmethod := @countMethod_of_search c fs hi
  rw [records_trace hs (by rw [hmethod]), he, hmethod, preparationRecords, hi]
  rfl

/-- Whether an index is to be made or the first key to be counted, an audit reads the project
    once if the walk is refused. -/
theorem records_trace_of_failure (hs : c.source.unusable? = none)
    (hp : c.project.unusable? = none) (hw : (c.walk fs).failure = some u)
    (h : c.useIndex = true ∨ fs.entriesAt c.reportEmptyValues c.source ≠ []) :
    (c.trace fs).records = c.warnings fs ++ [.unlistable u] := by
  rw [← readingRecords_of_failure hp hw]
  cases hi : c.useIndex with
  | true =>
    have hb : (LineIndex.build fs c.walkOptions c.project).outcome = .error (.unlistable u) :=
      FileSystem.outcome_fold_of_failure hp hw
    rw [records_trace_of_error (outcome_countMethod_of_failure hi hp hw), countMethod, if_pos hi,
      Logged.records_bind_of_error hb, records_build]
  | false =>
    obtain ⟨e, es, he⟩ := List.exists_cons_of_ne_nil (h.resolve_left (by simp [hi]))
    have hmethod := @countMethod_of_search c fs hi
    -- The resource file could be read, or it would have no entry.
    rw [records_trace hs (by rw [hmethod]), hmethod, he, FileSystem.warningsAt_of_entries he,
      List.flatMap_cons, records_performChecks_of_error (outcome_count_of_failure hp hw)
        (records_count_search c fs)]
    rfl

/-! ## Reports -/

/-- What an audit logs that comes to its end, if its resource file has some entries. -/
def successRecords (c : Config) (fs : FileSystem) (es : List Entry) : List Record :=
  .started c :: (c.preparationRecords fs ++ c.entryRecords fs es ++
    [.finished es.length ((distinctKeys es).filter fun key => c.hits fs key ≤ c.threshold).length])

theorem records_report_of_none (ho : c.obstacle? fs = .ok none)
    (hf : (c.trace fs).failure = none) :
    (c.report fs).records = .started c :: (c.trace fs).records ++
      [finishedRecord ((c.trace fs).findings.foldl (Summary.add c.verbose) c.blankSummary)] := by
  rw [report]
  simp only [Scene.files_fileSystem, Scene.record_fileSystem, ho, hf]

theorem records_report_of_some (ho : c.obstacle? fs = .ok none)
    (hf : (c.trace fs).failure = some (.unlistable u)) :
    (c.report fs).records = .started c :: (c.trace fs).records := by
  rw [report]
  simp only [Scene.files_fileSystem, Scene.record_fileSystem, ho, hf]

/-- The record of the end counts all entries, and each unused key once. -/
theorem finishedRecord_summaryOf (c : Config) (hits : Text → Nat) (es : List Entry) :
    finishedRecord (c.summaryOf hits es) =
      .finished es.length ((distinctKeys es).filter fun key => hits key ≤ c.threshold).length := by
  rw [finishedRecord, summaryOf, tally, List.length_map]

theorem records_of_success (ho : c.obstacle? fs = .ok none) (hf : (c.trace fs).failure = none) :
    (c.report fs).records =
      c.successRecords fs (fs.entriesAt c.reportEmptyValues c.source) := by
  have hs := unusable?_source ho
  have htrace : (c.trace fs).findings = c.findings fs ∧ (c.trace fs).records =
      c.preparationRecords fs ++
        c.entryRecords fs (fs.entriesAt c.reportEmptyValues c.source) := by
    rcases trace_cases ho with ⟨-, hw | ⟨hi, he⟩⟩ | ⟨u, hu, -⟩
    · exact ⟨(trace_of_complete hs hw).1, records_trace_of_complete hs hw⟩
    · rw [(trace_of_no_entries hi hs he).1, records_trace_of_no_entries hi hs he, findings, he]
      exact ⟨rfl, rfl⟩
    · cases hf.symm.trans hu
  rw [records_report_of_none ho hf, htrace.1, htrace.2, findings, foldl_add_findings,
    finishedRecord_summaryOf, successRecords]
  rfl

theorem records_of_failure (ho : c.obstacle? fs = .ok none)
    (hf : (c.trace fs).failure = some (.unlistable u)) :
    (c.walk fs).failure = some u ∧
      (c.report fs).records = .started c :: (c.warnings fs ++ [.unlistable u]) := by
  rcases trace_cases ho with ⟨hnone, -⟩ | ⟨v, hv, hw, hreads⟩
  · cases hf.symm.trans hnone
  · cases hf.symm.trans hv
    rw [records_report_of_some ho hf,
      records_trace_of_failure (unusable?_source ho) (unusable?_project ho) hw hreads]
    exact ⟨hw, rfl⟩

/-- How an audit came to its outcome: it did not start, or it came to its end, or it failed with
    the walk. -/
theorem cases_report {o : Outcome} (h : (c.report fs).outcome = .ok o) :
    (∃ ending, c.obstacle? fs = .ok (some ending) ∧ o = ending.outcome c.blankSummary) ∨
      c.obstacle? fs = .ok none ∧
        ((c.trace fs).failure = none ∧ (∃ s, o = Ending.complete.outcome s) ∨
          ∃ u, (c.trace fs).failure = some (.unlistable u) ∧
            ∃ s, o = (Ending.unlistable u.path).outcome s) := by
  cases ho : c.obstacle? fs with
  | error error =>
    rw [report_of_error ho] at h
    cases h
  | ok obstacle =>
    cases obstacle with
    | some ending =>
      rw [report_of_obstacle ho] at h
      exact .inl ⟨ending, rfl, (Except.ok.inj h).symm⟩
    | none =>
      rw [outcome_report ho, Trace.ending] at h
      rcases trace_cases ho with ⟨hf, -⟩ | ⟨u, hf, -⟩
      · rw [hf] at h
        exact .inr ⟨rfl, .inl ⟨hf, _, (Except.ok.inj h).symm⟩⟩
      · rw [hf] at h
        exact .inr ⟨rfl, .inr ⟨u, hf, _, (Except.ok.inj h).symm⟩⟩

theorem level_of_mem_warnings {r : Record} (h : r ∈ c.warnings fs) : r.level = .warning := by
  obtain ⟨p, -, hr⟩ := List.mem_flatMap.1 h
  rw [FileSystem.warningsAt] at hr
  split at hr
  · cases hr
  · rw [List.mem_singleton.1 hr]
    rfl

/-- The log of an audit is settled by its walk, the entries of its resource file and the counts
    of their keys. If it is a success, it begins, reads the project for an index, reads the
    resource file, counts the key of each entry and ends with their number and that of the
    unused keys; each reading leaves a warning for each file that gives no lines. If a
    directory cannot be listed, it begins and reads the project once, up to there. -/
theorem report_records (c : Config) (fs : FileSystem) {o : Outcome}
    (ho : (c.report fs).outcome = .ok o) :
    (o.success = true →
      ∃ es, (fs.resourceEntries c.reportEmptyValues c.source).outcome = .ok es ∧
        (∀ error, fs.text c.source = .error error → es = []) ∧
        (c.report fs).records =
          .started c ::
            ((if c.useIndex then
                c.warnings fs ++ [.indexed (fs.walkedLines c.walkOptions c.project).length
                  (c.walk fs).files.length]
              else []) ++
              fs.warningsAt c.source ++
              (es.flatMap fun e => (if c.useIndex then [] else c.warnings fs) ++
                [.counted e.key (c.hits fs e.key)]) ++
              [.finished es.length
                ((distinctKeys es).filter fun key => c.hits fs key ≤ c.threshold).length])) ∧
    (∀ directory : Path, o.result = (Ending.unlistable directory).message →
      ∃ u, (c.walk fs).failure = some u ∧ u.path.toText = directory.toText ∧
        (c.report fs).records = .started c :: (c.warnings fs ++ [.unlistable u]) ∧
        ((c.report fs).records.filter fun r => r.level = .error) = [.unlistable u] ∧
        ∀ checked unused, .finished checked unused ∉ (c.report fs).records) := by
  rcases cases_report ho with ⟨ending, hobstacle, rfl⟩ | ⟨hstart, ⟨hf, s, rfl⟩ | ⟨u, hf, s, rfl⟩⟩
  · -- What keeps an audit from starting is no success, and no directory that cannot be listed.
    rcases obstacle?_eq_some hobstacle with rfl | rfl
    · exact ⟨nofun, nofun⟩
    · exact ⟨nofun, nofun⟩
  · refine ⟨fun _ => ?_, fun directory hresult => ?_⟩
    · have hs := unusable?_source hstart
      refine ⟨_, FileSystem.outcome_resourceEntries hs _,
        fun error herror => FileSystem.entriesAt_of_error herror _, ?_⟩
      rw [records_of_success hstart hf]
      rfl
    · cases hresult
  · refine ⟨nofun, fun directory hresult => ?_⟩
    obtain ⟨hw, hrecords⟩ := records_of_failure hstart hf
    have hnone : (c.warnings fs).filter (fun r => r.level = .error) = [] :=
      List.filter_eq_nil_iff.2 fun r hr => by
        simp [level_of_mem_warnings hr, Level.warning, Level.error]
    refine ⟨u, hw, List.append_cancel_left (List.append_cancel_right hresult), hrecords, ?_,
      fun checked unused hfinished => ?_⟩
    · rw [hrecords, List.filter_cons_of_neg (by simp [Record.level, Level.info, Level.error]),
        List.filter_append, hnone]
      rfl
    · rw [hrecords, List.mem_cons, List.mem_append, List.mem_singleton] at hfinished
      rcases hfinished with h | h | h
      · cases h
      · cases level_of_mem_warnings h
      · cases h

/-- A project with a file that is no text and a directory that may not be listed, and a resource
    file with a line that is no entry. -/
def spoiled : FileSystem where
  nodes := [
    (["s"], .file "\"a\" = \"x\";\n// no entry\n\"b\" = \"y\";".toUTF8),
    (["d"], .directory),
    (["x", "d"], .file ⟨#[0xFF]⟩),
    (["f", "d"], .file "\"a\"".toUTF8),
    (["c", "d"], .directory)]
  denied := [(.list, ["c", "d"])]
  workingDirectory := []
  distinct := by decide
  named := by decide

/-- An audit of `spoiled` that enters directories or does not. -/
def spoiledConfig (recursive : Bool) : Config where
  source := Path.ofText "s"
  project := Path.ofText "d"
  threshold := 0
  extensions := []
  reportEmptyValues := false
  verbose := false
  recursive := recursive
  useIndex := false

/-- What is logged about the file that is no text. -/
def spoiledRecord : Record := .unreadable (Path.ofText "d/x") (.undecodable ⟨0, 1, 0xFF, .invalidStart⟩)

theorem text_spoiled :
    spoiled.text (Path.ofText "d/x") = .error (.undecodable ⟨0, 1, 0xFF, .invalidStart⟩) ∧
      spoiled.text (Path.ofText "d/f") = .ok "\"a\"" := by
  constructor <;> cbv

/-- The directory comes last, and stops a walk that is to enter it. -/
theorem walk_spoiled (recursive : Bool) : (spoiledConfig recursive).walk spoiled =
    ⟨[Path.ofText "d/x", Path.ofText "d/f"],
      if recursive then some ⟨Path.ofText "d/c", .refused .permissionDenied "d/c"⟩ else none⟩ := by
  cases recursive <;> cbv

theorem warnings_spoiled (recursive : Bool) :
    (spoiledConfig recursive).warnings spoiled = [spoiledRecord] := by
  rw [warnings, walk_spoiled]
  simp [FileSystem.warningsAt, text_spoiled, spoiledRecord]

theorem obstacle?_spoiled (recursive : Bool) :
    (spoiledConfig recursive).obstacle? spoiled = .ok none :=
  obstacle?_eq_none_iff.2 ⟨by cbv, by cbv⟩

theorem entries_spoiled (recursive : Bool) :
    spoiled.entriesAt (spoiledConfig recursive).reportEmptyValues
      (spoiledConfig recursive).source = [⟨"\"a\"", false⟩, ⟨"\"b\"", false⟩] := by
  cbv

theorem hits_spoiled (recursive : Bool) (key : Text) :
    (spoiledConfig recursive).hits spoiled key = countIn key ["\"a\""] := by
  have hlines : spoiled.walkedLines (spoiledConfig recursive).walkOptions
      (spoiledConfig recursive).project = linesOf "\"a\"" := by
    change ((spoiledConfig recursive).walk spoiled).files.flatMap spoiled.linesAt = _
    rw [walk_spoiled]
    simp [FileSystem.linesAt, text_spoiled]
  rw [hits, hlines]
  rfl

/-- The file is warned of for each key. If the directory is to be listed, it is so once. -/
theorem report_records_spoiled :
    ((spoiledConfig false).report spoiled).records =
        [.started (spoiledConfig false), spoiledRecord, .counted "\"a\"" 1, spoiledRecord,
          .counted "\"b\"" 0, .finished 2 1] ∧
      ((spoiledConfig true).report spoiled).records =
        [.started (spoiledConfig true), spoiledRecord,
          .unlistable ⟨Path.ofText "d/c", .refused .permissionDenied "d/c"⟩] := by
  have hs := fun recursive => unusable?_source (obstacle?_spoiled recursive)
  have hp := fun recursive => unusable?_project (obstacle?_spoiled recursive)
  constructor
  · have hf := (trace_of_complete (hs false) (congrArg Walk.failure (walk_spoiled false))).2
    obtain ⟨s, houtcome⟩ : ∃ s, ((spoiledConfig false).report spoiled).outcome =
        .ok (Ending.complete.outcome s) :=
      ⟨_, by rw [outcome_report (obstacle?_spoiled false), Trace.ending, hf]⟩
    obtain ⟨es, hes, -, hrecords⟩ := (report_records _ spoiled houtcome).1 rfl
    rw [FileSystem.outcome_resourceEntries (hs false), entries_spoiled] at hes
    cases hes
    rw [hrecords, warnings_spoiled, FileSystem.warningsAt_of_entries (entries_spoiled false)]
    simp only [hits_spoiled]
    cbv
  · have hf := (trace_of_failure rfl (hs true) (hp true)
      (congrArg Walk.failure (walk_spoiled true)) (entries_spoiled true)).2
    obtain ⟨s, houtcome⟩ : ∃ s, ((spoiledConfig true).report spoiled).outcome =
        .ok ((Ending.unlistable (Path.ofText "d/c")).outcome s) :=
      ⟨_, by rw [outcome_report (obstacle?_spoiled true), Trace.ending, hf]⟩
    obtain ⟨u, hu, -, hrecords, -⟩ := (report_records _ spoiled houtcome).2 (Path.ofText "d/c") rfl
    rw [walk_spoiled] at hu
    rw [hrecords, warnings_spoiled, ← Option.some.inj hu]
    rfl

end Config

end KeyAudit
