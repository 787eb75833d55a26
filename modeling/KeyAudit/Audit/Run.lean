import KeyAudit.Audit.Report

/-!
# Audits one event at a time

An audit may be run step by step, each step up to the next event. The resource
file is read when the first key is needed, an index is made at the first step,
and without an index every key is counted in the scene as it is when its turn
comes.
-/

namespace KeyAudit

/-- How far an audit has come. -/
inductive Stage
  /-- Nothing has been done. -/
  | ready
  /-- Some checks are due. -/
  | checking (method : CountMethod) (due : List Check)

/-- An audit on its way. -/
structure Run where
  config : Config
  stage : Stage
  summary : Summary

/-- What a step of an audit leads to. -/
inductive Progress
  /-- A finding is reported, and the audit may go on. -/
  | event (f : Finding) (rest : Run)
  /-- The audit ends. -/
  | ended (outcome : Outcome)
  /-- The audit breaks off. -/
  | broken (error : AccessError)

namespace Run

variable {σ : Type} [Scene σ]

/-- An audit before its first step. -/
def start (c : Config) : Run := ⟨c, .ready, c.blankSummary⟩

/-- Ends an audit early. -/
def fail (s : Summary) : CountError → Progress
  | .unlistable directory => .ended ((Ending.unlistable directory.path).outcome s)
  | .inaccessible error => .broken error

/-- Carries out checks up to the first finding that is reported. -/
def advance (s : σ) (c : Config) (method : CountMethod) (summary : Summary) :
    List Check → List Record × Progress
  | [] => ([Config.finishedRecord summary], .ended (Ending.complete.outcome summary))
  | check :: due =>
    match check.perform s c method with
    | ⟨records, .error error⟩ => (records, fail summary error)
    | ⟨records, .ok finding⟩ =>
      let summary := summary.add c.verbose finding
      if c.reports finding then (records, .event finding ⟨c, .checking method due, summary⟩)
      else
        let (more, progress) := advance (Scene.record s records) c method summary due
        (records ++ more, progress)

/-- Carries out the next step of an audit. -/
def next (s : σ) (run : Run) : List Record × Progress :=
  let c := run.config
  match run.stage with
  | .checking method due => advance s c method run.summary due
  | .ready =>
    match c.obstacle? (Scene.files s) with
    | .error error => ([], .broken error)
    | .ok (some ending) =>
      (Config.obstacleRecords ending, .ended (ending.outcome run.summary))
    | .ok none =>
      let s := Scene.record s [.started c]
      match c.prepare s with
      | ⟨records, .error error⟩ => (.started c :: records, fail run.summary error)
      | ⟨records, .ok (method, due)⟩ =>
        let (more, progress) := advance (Scene.record s records) c method run.summary due
        (.started c :: records ++ more, progress)

end Run

end KeyAudit
