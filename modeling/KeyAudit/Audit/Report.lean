import KeyAudit.Audit.Check

/-!
# Audits

An audit first makes sure that the resource file and the project exist, then
checks the keys. It reports findings as events, and at its end it has an outcome:
a result in words, whether it succeeded, and its summary. An audit whose project
has a directory that cannot be listed ends there, without success; what it has
reported until then stays.

* `Config.report` is a whole audit in a scene, such as a file system that does not
  change;
* `Run.next` is the same audit one event at a time, each with a look at the scene
  as it is then.
-/

namespace KeyAudit

/-- How a piece of work ended. -/
structure Outcome where
  result : Text
  success : Bool
  output : List (Text × Json)

/-- The outcome of work that has not ended. -/
def Outcome.pending : Outcome := ⟨"", false, []⟩

/-- How an audit ended. -/
inductive Ending
  /-- All keys have been checked. -/
  | complete
  /-- The resource file is missing. -/
  | sourceMissing (source : Path)
  /-- The project is missing. -/
  | projectMissing (project : Path)
  /-- A directory of the project cannot be listed. -/
  | unlistable (directory : Path)
  /-- There is no configuration to begin with. -/
  | misconfigured (message : Text)
deriving Repr, DecidableEq

namespace Ending

/-- The ending in words. -/
def message : Ending → Text
  | complete => "finished!"
  | sourceMissing source => "File " ++ source.toText ++ " does not exist. Could not start tool."
  | projectMissing project =>
    "Directory " ++ project.toText ++ " does not exist. Could not start tool."
  | unlistable directory => "Could not open directory " ++ directory.toText ++ "."
  | misconfigured message => message

/-- The outcome of an audit that ended so with a summary. -/
def outcome (e : Ending) (s : Summary) : Outcome :=
  match e with
  | complete => ⟨e.message, true, s.members⟩
  | e => ⟨e.message, false, (s.fail e.message).members⟩

theorem result_outcome (e : Ending) (s : Summary) : (e.outcome s).result = e.message := by
  cases e <;> rfl

end Ending

/-- What a piece of work reports, and its outcome, unless it breaks off. -/
structure Report where
  records : List Record
  events : List Finding
  outcome : Except AccessError Outcome

namespace Config

/-- The summary of an audit that has found nothing yet. -/
def blankSummary (c : Config) : Summary :=
  .blank c.source.toText c.project.toText

/-- What keeps an audit from starting, if anything does. -/
def obstacle? (c : Config) (fs : FileSystem) : Except AccessError (Option Ending) := do
  if !(← fs.isPresent c.source) then return some (.sourceMissing c.source)
  if !(← fs.isPresent c.project) then return some (.projectMissing c.project)
  return none

/-- An audit starts if its resource file and its project are there. -/
theorem obstacle?_eq_none_iff {c : Config} {fs : FileSystem} :
    c.obstacle? fs = .ok none ↔
      fs.isPresent c.source = .ok true ∧ fs.isPresent c.project = .ok true := by
  unfold obstacle?
  cases fs.isPresent c.source with
  | error error => exact iff_of_false (fun h => by cases h) (fun h => by cases h.1)
  | ok source =>
    cases fs.isPresent c.project with
    | error error =>
      cases source
      · exact iff_of_false (fun h => by cases h) (fun h => by cases h.1)
      · exact iff_of_false (fun h => by cases h) (fun h => by cases h.2)
    | ok project =>
      cases source
      · exact iff_of_false (fun h => by cases h) (fun h => by cases h.1)
      · cases project
        · exact iff_of_false (fun h => by cases h) (fun h => by cases h.2)
        · exact iff_of_true rfl ⟨rfl, rfl⟩

/-- What keeps an audit from starting is that one of the two is missing. -/
theorem obstacle?_eq_some {c : Config} {fs : FileSystem} {ending : Ending}
    (h : c.obstacle? fs = .ok (some ending)) :
    ending = .sourceMissing c.source ∨ ending = .projectMissing c.project := by
  unfold obstacle? at h
  cases hs : fs.isPresent c.source with
  | error error => rw [hs] at h; cases h
  | ok source =>
    cases source with
    | false => rw [hs] at h; cases h; exact .inl rfl
    | true =>
      cases hp : fs.isPresent c.project with
      | error error => rw [hs, hp] at h; cases h
      | ok project =>
        cases project with
        | false => rw [hs, hp] at h; cases h; exact .inr rfl
        | true => rw [hs, hp] at h; cases h

/-- The log record about what kept an audit from starting. -/
def obstacleRecords : Ending → List Record
  | .sourceMissing source => [.sourceMissing source]
  | .projectMissing project => [.projectMissing project]
  | _ => []

/-- The record of the end of an audit. -/
def finishedRecord (s : Summary) : Record :=
  .finished s.keysChecked s.unusedKeys.length

/-- Audits the keys of a resource file against a project. -/
def report {σ : Type} [Scene σ] (c : Config) (s : σ) : Report :=
  match c.obstacle? (Scene.files s) with
  | .error error => ⟨[], [], .error error⟩
  | .ok (some ending) => ⟨obstacleRecords ending, [], .ok (ending.outcome c.blankSummary)⟩
  | .ok none =>
    let trace := c.trace (Scene.record s [.started c])
    let events := trace.findings.filter c.reports
    let summary := trace.findings.foldl (Summary.add c.verbose) c.blankSummary
    let records := .started c :: trace.records
    match trace.failure with
    | none =>
      ⟨records ++ [finishedRecord summary], events, .ok (Ending.complete.outcome summary)⟩
    | some (.unlistable directory) =>
      ⟨records, events, .ok ((Ending.unlistable directory.path).outcome summary)⟩
    | some (.inaccessible error) => ⟨records, events, .error error⟩

end Config

end KeyAudit
