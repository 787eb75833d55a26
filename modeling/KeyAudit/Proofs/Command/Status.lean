import Mathlib
import KeyAudit.Proofs.Audit.Events
import KeyAudit.Proofs.Command.Boundary
import KeyAudit.Proofs.Console.Writing

/-!
# Events, outcome and exit code

A command tells how it went in several ways: by its events while it is carried out, by the
summary, the result and the success of its outcome, and by the exit code of the program.
They all tell the same, in whatever scene the command is carried out, and wherever an audit
ends that has begun (`status_of_made`):

* the summary is what the events add up to (`Summary.Collects`);
* a success has no errors and the result `finished!`, and a failure has its result as its
  only error (`Outcome.IsConsistent`);
* the exit code is 0 for a success and 1 for a failure. For this the program has to come to
  its end, and it breaks off when something that it shows has no encoding
  (`not_exits_halves`).
-/

namespace KeyAudit

/-- The result, the success and the errors of an outcome tell the same. -/
structure Outcome.IsConsistent (o : Outcome) (s : Summary) : Prop where
  output : o.output = s.members
  result : o.result ≠ []
  success_iff_errors : o.success = true ↔ s.errors = []
  success_iff_result : o.success = true ↔ o.result = "finished!"
  errors : o.success = false → s.errors = [o.result]

/-- A complete audit succeeds, and what ends otherwise fails with a complaint. The events
    stay what they are. -/
theorem Ending.isConsistent_outcome {e : Ending} {s : Summary} {verbose : Bool}
    {events : List Finding} (he : e = .complete ∨ Command.IsComplaint e.message)
    (hs : s.errors = []) (hc : s.Collects verbose events) :
    ∃ closing : Summary, (e.outcome s).IsConsistent closing ∧ closing.Collects verbose events ∧
      closing.keysChecked = s.keysChecked := by
  by_cases hcomplete : e = .complete
  · subst hcomplete
    exact ⟨s, ⟨rfl, List.cons_ne_nil _ _, iff_of_true rfl hs, iff_of_true rfl rfl,
      fun hf => by cases hf⟩, hc, rfl⟩
  · have hm := he.resolve_left hcomplete
    have ho : e.outcome s = ⟨e.message, false, (s.fail e.message).members⟩ := by
      cases e with
      | complete => exact absurd rfl hcomplete
      | sourceMissing | projectMissing | unlistable | misconfigured => rfl
    have herrors : (s.fail e.message).errors = [e.message] := by rw [Summary.fail, hs]; rfl
    rw [ho]
    refine ⟨s.fail e.message, ⟨rfl, hm.ne_nil, ?_, ?_, fun _ => herrors⟩, hc.fail _, rfl⟩
    · exact iff_of_false Bool.false_ne_true (by rw [herrors]; exact List.cons_ne_nil _ _)
    · exact iff_of_false Bool.false_ne_true hm.ne_finished

/-- However an audit ends, it is complete or there is something to complain about. -/
theorem Ending.isComplaint_message {e : Ending} (h : ∀ message, e ≠ .misconfigured message) :
    e = .complete ∨ Command.IsComplaint e.message := by
  cases e with
  | complete => exact .inl rfl
  | misconfigured message => exact absurd rfl (h message)
  | sourceMissing | projectMissing | unlistable => exact .inr ⟨_, _, rfl, by decide⟩

namespace Command

/-- A command that is made for a configuration file or for arguments. -/
inductive IsMade (env : Environment) (fs : FileSystem) (command : Command) : Prop
  | file {path : Text} : ofFile env fs path = .ok command → IsMade env fs command
  | arguments {a : Arguments} : ofArguments env a = .ok command → IsMade env fs command

/-- Whether a command reports used keys. -/
def isVerbose : Command → Bool
  | audit config => config.verbose
  | _ => false

/-- A command has no configuration, or its audit does not start. -/
inductive FailsToStart (fs : FileSystem) : Command → Prop
  | misconfigured {message source project : Text} :
      FailsToStart fs (.misconfigured message source project)
  | sourceMissing {config : Config} : fs.isPresent config.source = .ok false →
      FailsToStart fs (.audit config)
  | projectMissing {config : Config} : fs.isPresent config.project = .ok false →
      FailsToStart fs (.audit config)

variable {env : Environment} {fs : FileSystem} {command : Command}

/-- A command that is made for a configuration file is an audit, or it complains. -/
theorem cases_ofFile {path : Text} (h : ofFile env fs path = .ok command) :
    (∃ config, command = .audit config) ∨ ∃ message source project,
      command = .misconfigured message source project ∧ IsComplaint message := by
  rw [ofFile] at h
  split at h
  · case h_1 error hp =>
      cases h
      exact .inr ⟨_, _, _, rfl, isComplaint_message error⟩
  · cases h
  · split at h
    · case h_1 config hl =>
        cases h
        exact .inl ⟨config, rfl⟩
    · split at h
      · case isTrue hr =>
          cases h
          exact .inr ⟨_, _, _, rfl, isComplaint_of_isReported hr⟩
      · cases h

theorem cases_ofArguments {a : Arguments} (h : ofArguments env a = .ok command) :
    (∃ config, command = .audit config) ∨ ∃ message source project,
      command = .misconfigured message source project ∧ IsComplaint message := by
  rw [ofArguments] at h
  cases hp : env.expandUser (Path.ofText a.source) with
  | error error => rw [hp] at h; cases h
  | ok source =>
    cases hq : env.expandUser (Path.ofText a.project) with
    | error error => rw [hp, hq] at h; cases h
    | ok project =>
      simp only [hp, hq, Except.mapError, bind, Except.bind] at h
      split at h
      · case h_1 config hs =>
          cases h
          exact .inl ⟨config, rfl⟩
      · cases h
      · cases h
        exact .inr ⟨_, _, _, rfl, _, _, rfl, by decide⟩

theorem IsMade.audit_or_complaint (h : IsMade env fs command) :
    (∃ config, command = .audit config) ∨ ∃ message source project,
      command = .misconfigured message source project ∧ IsComplaint message := by
  cases h with
  | file h => exact cases_ofFile h
  | arguments h => exact cases_ofArguments h

/-- An audit that fails to start meets an obstacle. -/
theorem FailsToStart.obstacle? {config : Config} (h : FailsToStart fs (.audit config)) :
    config.obstacle? fs ≠ .ok none := by
  intro ho
  obtain ⟨hsource, hproject⟩ := Config.obstacle?_eq_none_iff.1 ho
  cases h with
  | sourceMissing h => cases h.symm.trans hsource
  | projectMissing h => cases h.symm.trans hproject

/-- Events, summary, result, success and exit code of a command tell the same, when it comes
    to an outcome in a scene. A command that has no configuration, or whose resource file or
    project is missing, has no events and has checked no key. The exit code needs that all
    that the command shows has an encoding, and nothing else. -/
theorem status_of_made {σ : Type} [Scene σ] {s : σ} {outcome : Outcome}
    (hmade : IsMade env fs command) (h : (command.perform s).outcome = .ok outcome) :
    ∃ summary : Summary, outcome.IsConsistent summary ∧
      summary.Collects command.isVerbose (command.perform s).events ∧
      (command.FailsToStart (Scene.files s) →
        (command.perform s).events = [] ∧ summary.keysChecked = 0) ∧
      ∀ format,
        ((Console.performAndPresent format s command).2.ending =
            .ok (if outcome.success then 0 else 1) ∧
          Console.IsEncodable format command.announcement (command.perform s).events outcome) ∨
        ∃ error, (Console.performAndPresent format s command).2.ending =
            .error (.unwritable error) ∧
          ¬Console.IsEncodable format command.announcement (command.perform s).events outcome := by
  have hends : ∃ summary : Summary, outcome.IsConsistent summary ∧
      summary.Collects command.isVerbose (command.perform s).events ∧
      (command.FailsToStart (Scene.files s) →
        (command.perform s).events = [] ∧ summary.keysChecked = 0) := by
    rcases hmade.audit_or_complaint with ⟨c, rfl⟩ | ⟨message, source, project, rfl, hm⟩
    · obtain ⟨ending, summary, rfl, hmis, herrors, hcollects, hstart⟩ := Config.ends_of_report h
      obtain ⟨closing, hconsistent, hclosing, hchecked⟩ :=
        Ending.isConsistent_outcome (Ending.isComplaint_message hmis) herrors hcollects
      refine ⟨closing, hconsistent, hclosing, fun hfails => ?_⟩
      rw [hchecked]
      exact hstart hfails.obstacle?
    · cases h
      have he : Ending.misconfigured message = .complete ∨
          IsComplaint (Ending.misconfigured message).message := .inr hm
      obtain ⟨closing, hconsistent, hclosing, hchecked⟩ := Ending.isConsistent_outcome he rfl
        (Summary.collects_blank false source project)
      exact ⟨closing, hconsistent, hclosing, fun _ => ⟨rfl, hchecked⟩⟩
  obtain ⟨summary, hconsistent, hcollects, hstart⟩ := hends
  exact ⟨summary, hconsistent, hcollects, hstart, fun format =>
    Console.ending_performAndPresent h hconsistent.result⟩

/-- Arguments for an audit of `closed`. -/
def closedArguments : Arguments where
  source := "s"
  project := "d"
  threshold := .int 0
  extensions := .arr []
  reportEmptyValues := .bool true
  verbose := .bool false
  recursive := .bool true
  useIndex := .bool false

/-- The audit that stops at a directory has reported an empty value, and exits with 1. -/
theorem status_of_made_closed :
    IsMade ⟨[], [], []⟩ Config.closed (.audit Config.closedConfig) ∧
      ∃ outcome summary, ((audit Config.closedConfig).perform Config.closed).outcome = .ok outcome ∧
        outcome.IsConsistent summary ∧
        summary.Collects false [⟨.emptyValue, "\"a\"", 0⟩] ∧
        summary.errors = ["Could not open directory d/c."] ∧
        (Console.performAndPresent "text" Config.closed (.audit Config.closedConfig)).2.ending =
          .ok 1 := by
  have hmade : IsMade ⟨[], [], []⟩ Config.closed (.audit Config.closedConfig) :=
    .arguments (show ofArguments ⟨[], [], []⟩ closedArguments = _ by cbv)
  have hevents : ((audit Config.closedConfig).perform Config.closed).events =
      [⟨.emptyValue, "\"a\"", 0⟩] := by cbv
  have houtcome : ((audit Config.closedConfig).perform Config.closed).outcome =
      .ok ⟨"Could not open directory d/c.", false, (Config.stoppedSummary Config.closedConfig
        (Path.ofText "d/c") [⟨.emptyValue, "\"a\"", 0⟩]).members⟩ := by cbv
  obtain ⟨summary, hconsistent, hcollects, -, hending⟩ := status_of_made hmade houtcome
  refine ⟨hmade, _, summary, houtcome, hconsistent, hevents ▸ hcollects,
    hconsistent.errors rfl, ?_⟩
  rcases hending "text" with ⟨hcode, -⟩ | ⟨_, -, hhalf⟩
  · exact hcode
  · refine absurd ⟨by cbv, ?_, by cbv, fun hf => absurd rfl hf⟩ hhalf
    rw [hevents]
    decide

/-- A half of a surrogate pair that stands alone. -/
def loneHalf : CodePoint := .half ⟨0xDCC3, by decide⟩

/-- A resource file without keys, and a project without files. -/
def bare : FileSystem where
  nodes := [(["s"], .file ByteArray.empty), (["d"], .directory)]
  denied := []
  workingDirectory := []
  distinct := by decide
  named := by decide

/-- Arguments for an audit of files with an extension that has no encoding. -/
def halfArguments : Arguments :=
  { closedArguments with extensions := .arr [.str [loneHalf]] }

/-- The audit that these arguments describe. -/
def halfConfig : Config :=
  { Config.closedConfig with extensions := [[loneHalf]] }

/-- What has no encoding keeps the program from exiting as the outcome says: with 0 after a
    success, and with 1 after a failure. -/
theorem not_exits_halves :
    (∃ command outcome, ofArguments ⟨[], [], []⟩ halfArguments = .ok command ∧
      (command.perform bare).outcome = .ok outcome ∧ outcome.success = true ∧
      ∀ format, (Console.performAndPresent format bare command).2.ending ≠ .ok 0) ∧
    ∃ command outcome, ofFile ⟨[], [], []⟩ bare [loneHalf] = .ok command ∧
      (command.perform bare).outcome = .ok outcome ∧ outcome.success = false ∧
      ∀ format, (Console.performAndPresent format bare command).2.ending ≠ .ok 1 := by
  constructor
  · have hmade : ofArguments ⟨[], [], []⟩ halfArguments = .ok (.audit halfConfig) := by cbv
    have houtcome : ((audit halfConfig).perform bare).outcome =
        .ok ⟨"finished!", true, halfConfig.blankSummary.members⟩ := by cbv
    refine ⟨_, _, hmade, houtcome, rfl, fun format hcode => ?_⟩
    -- The extension is announced.
    have hhalf : Text.holdsHalf (audit halfConfig).announcement = true := by cbv
    have hshown := Console.isEncodable_of_ending houtcome (List.cons_ne_nil _ _) hcode
    exact Bool.false_ne_true (hshown.announcement.symm.trans hhalf)
  · have hmade : ofFile ⟨[], [], []⟩ bare [loneHalf] =
        .ok (.misconfigured ("Configuration file not found at " ++ [loneHalf]) "" "") := by cbv
    refine ⟨_, _, hmade, rfl, rfl, fun format hcode => ?_⟩
    -- The result has the path in it.
    have hhalf : Text.holdsHalf ("Configuration file not found at " ++ [loneHalf]) = true := by cbv
    have hshown := Console.isEncodable_of_ending rfl (List.cons_ne_nil _ _) hcode
    exact Bool.false_ne_true (hshown.result.symm.trans hhalf)

end Command

end KeyAudit
