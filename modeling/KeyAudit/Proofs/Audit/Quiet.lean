import Mathlib
import KeyAudit.Command
import KeyAudit.Host

/-!
# Audits that the log does not reach

Where logging leaves the files alone (`Scene.IsQuiet`), a command in a scene does what it does in
its file system, which does not change (`Command.perform_of_isQuiet`). What is known about audits
of file systems is so known about the program as well, as on a host without log handlers
(`Host.isQuiet_of_handlers`).
-/

namespace KeyAudit

variable {σ : Type} [Scene σ] {s : σ}

/-- Whatever is logged from here on, the files stay what they are. -/
def Scene.IsQuiet (s : σ) : Prop :=
  ∀ logged : List (List Record), Scene.files (logged.foldl Scene.record s) = Scene.files s

namespace Scene.IsQuiet

theorem files_record (h : Scene.IsQuiet s) (records : List Record) :
    Scene.files (Scene.record s records) = Scene.files s :=
  h [records]

theorem record (h : Scene.IsQuiet s) (records : List Record) :
    Scene.IsQuiet (Scene.record s records) :=
  fun logged => (h (records :: logged)).trans (h.files_record records).symm

end Scene.IsQuiet

/-! ## Counts -/

theorem Walk.fold_of_isQuiet {α : Type} (h : Scene.IsQuiet s) (w : Walk)
    (step : α → List Text → α) (a : α) : w.fold s step a = w.fold (Scene.files s) step a := by
  suffices ∀ files, Walk.fold.go w step files s a =
      Walk.fold.go w step files (Scene.files s) a from this w.files
  intro files
  induction files generalizing s a with
  | nil => rfl
  | cons p files ih =>
    have hrest : ∀ records a, Walk.fold.go w step files (Scene.record s records) a =
        Walk.fold.go w step files (Scene.files s) a := fun records a => by
      rw [ih (h.record records), h.files_record]
    simp only [Walk.fold.go, hrest, Scene.files_fileSystem, Scene.record_fileSystem]

theorem occurrences_of_isQuiet (h : Scene.IsQuiet s) (options : WalkOptions) (project : Path)
    (key : Text) :
    occurrences s options project key = occurrences (Scene.files s) options project key :=
  Walk.fold_of_isQuiet h _ _ _

theorem LineIndex.build_of_isQuiet (h : Scene.IsQuiet s) (options : WalkOptions)
    (project : Path) : build s options project = build (Scene.files s) options project :=
  Walk.fold_of_isQuiet h _ _ _

/-! ## Checks -/

theorem Check.perform_of_isQuiet (h : Scene.IsQuiet s) (c : Config) (method : CountMethod)
    (check : Check) : check.perform s c method = check.perform (Scene.files s) c method := by
  have hcount : ∀ key, c.count s method key = c.count (Scene.files s) method key := fun key => by
    cases method with
    | search => exact occurrences_of_isQuiet h _ _ _
    | index lines => rfl
  cases check with
  | emptyValue key => rfl
  | usage key => rw [perform, perform, hcount]

theorem performChecks_of_isQuiet (h : Scene.IsQuiet s) (c : Config) (method : CountMethod)
    (checks : List Check) :
    performChecks s c method checks = performChecks (Scene.files s) c method checks := by
  induction checks generalizing s with
  | nil => rfl
  | cons check due ih =>
    -- The other checks are made in the scene that this one leaves, which is quiet as well.
    have hdue : ∀ records, performChecks (Scene.record s records) c method due =
        performChecks (Scene.files s) c method due := fun records => by
      rw [ih (h.record records), h.files_record]
    simp only [performChecks, Check.perform_of_isQuiet h, hdue, Scene.record_fileSystem]

/-! ## Audits -/

namespace Config

theorem prepare_of_isQuiet (h : Scene.IsQuiet s) (c : Config) :
    c.prepare s = c.prepare (Scene.files s) := by
  have hmethod : c.countMethod s = c.countMethod (Scene.files s) := by
    rw [countMethod, countMethod, LineIndex.build_of_isQuiet h]
  simp only [prepare, Logged.andThen, hmethod, h.files_record, Scene.files_fileSystem,
    Scene.record_fileSystem]

theorem trace_of_isQuiet (h : Scene.IsQuiet s) (c : Config) :
    c.trace s = c.trace (Scene.files s) := by
  have hchecks : ∀ records method checks, performChecks (Scene.record s records) c method checks =
      performChecks (Scene.files s) c method checks := fun records method checks => by
    rw [performChecks_of_isQuiet (h.record records), h.files_record]
  simp only [trace, prepare_of_isQuiet h, hchecks, Scene.record_fileSystem]

theorem report_of_isQuiet (h : Scene.IsQuiet s) (c : Config) :
    c.report s = c.report (Scene.files s) := by
  have htrace : c.trace (Scene.record s [.started c]) = c.trace (Scene.files s) := by
    rw [trace_of_isQuiet (h.record _), h.files_record]
  simp only [report, htrace, Scene.files_fileSystem, Scene.record_fileSystem]

end Config

/-- Where logging leaves the files alone, a command does what it does in a file system that does
    not change. -/
theorem Command.perform_of_isQuiet (h : Scene.IsQuiet s) (command : Command) :
    command.perform s = command.perform (Scene.files s) := by
  cases command with
  | audit c => exact c.report_of_isQuiet h
  | misconfigured | version => rfl

/-! ## Hosts -/

/-- A line for no handlers leaves the files alone. -/
theorem Logging.emit_of_handlers {logging : Logging} (h : logging.handlers = []) (time : Text)
    (fs : FileSystem) (line : LogLine) :
    (logging.emit time fs line).1 = fs ∧ (logging.emit time fs line).2.handlers = [] := by
  have hprepare : (logging.prepare line).handlers = [] := by
    rw [prepare, decideOn, openChannel]
    split <;> split <;> exact h
  simp only [emit]
  split
  · simp [hprepare, appendAll]
  · exact ⟨rfl, hprepare⟩

namespace Host

theorem log_of_handlers {host : Host} (h : host.logging.handlers = []) (lines : List LogLine) :
    (host.log lines).fs = host.fs ∧ (host.log lines).logging.handlers = [] := by
  induction lines generalizing host with
  | nil => exact ⟨rfl, h⟩
  | cons line lines ih =>
    obtain ⟨hfs, hhandlers⟩ := Logging.emit_of_handlers h host.time host.fs line
    obtain ⟨hrest, hnone⟩ := @ih (host.logLine line) hhandlers
    exact ⟨hrest.trans hfs, hnone⟩

theorem isQuiet_of_handlers {host : Host} (h : host.logging.handlers = []) :
    Scene.IsQuiet host := by
  intro logged
  induction logged generalizing host with
  | nil => rfl
  | cons records logged ih =>
    obtain ⟨hfs, hhandlers⟩ := log_of_handlers h (records.map Record.toLine)
    exact (ih hhandlers).trans hfs

end Host

end KeyAudit
