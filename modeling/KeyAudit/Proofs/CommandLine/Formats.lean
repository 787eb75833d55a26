import Mathlib
import KeyAudit.CommandLine.Session
import KeyAudit.Proofs.Audit.Quiet
import KeyAudit.Proofs.Command.Output

/-!
# Formats of output

A check or a run may be asked for in several formats (`Asks`). If it comes to its end then the
text that is written in the format `json` is that of the format `text`, followed by one JSON text
and a line feed, and the exit code is the same. The JSON text is read as the output of the
command: the same members in the same order, with the same texts and counts
(`runProgram_json`).

The JSON text bypasses the markup of the other lines, and what is written in front of it is
written in the same way (`writeAll_append`). It can be written because all that is in it has been
shown before, but for the paths on the command line, which therefore have to be texts that can
be.
-/

namespace KeyAudit

namespace Text

theorem ofString_append (t u : String) : ofString (t ++ u) = ofString t ++ ofString u := by
  rw [ofString, String.toList_append]
  exact List.map_append

end Text

namespace Console

/-- What comes after pieces that are written is written behind them. -/
theorem writeAll_append {pieces more : List Output} (h : IsWritten pieces) :
    writeAll (pieces ++ more) =
      ((writeAll pieces).1 ++ (writeAll more).1, (writeAll more).2) := by
  induction pieces with
  | nil => simp [writeAll]
  | cons piece pieces ih =>
    obtain ⟨⟨text, htext⟩, hrest⟩ := isWritten_cons.1 h
    simp only [List.cons_append, writeAll, htext, ih hrest, String.append_assoc]

variable {format announcement : Text} {events : List Finding} {outcome : Outcome}

/-- Without structured output there is nothing more to encode. -/
theorem IsEncodable.text (h : IsEncodable format announcement events outcome) :
    IsEncodable textFormat announcement events outcome :=
  { h with output := fun hne => absurd rfl hne }

/-- Structured output comes after all else that is shown. -/
theorem out_present_json {summary : String} (hresult : outcome.result ≠ [])
    (hshown : IsEncodable textFormat announcement events outcome)
    (hsummary : Text.ofString summary = (Json.obj outcome.output).write outputLayout 0) :
    (present "json" announcement (events.map Event.finding) (.ok outcome)).out =
      (present textFormat announcement (events.map Event.finding) (.ok outcome)).out ++
        summary ++ "\n" := by
  have hwritten : IsWritten (announce announcement ++ (events.map Event.finding).flatMap event ++
      showResult outcome) := by
    rw [isWritten_append, isWritten_append, isWritten_announce, isWritten_events,
      isWritten_showResult]
    exact ⟨⟨hshown.announcement, hshown.events⟩, hshown.result⟩
  have hpiece : writeAll (showOutput "json" outcome) = (summary ++ "\n", none) := by
    have htext : (Json.obj outcome.output).write outputLayout 0 ++ "\n" =
        Text.ofString (summary ++ "\n") := by
      rw [← hsummary, Text.ofString_append]
    have hwrite : (structured "json" outputLayout (.obj outcome.output)).write =
        .ok (summary ++ "\n") := by
      rw [structured, if_neg (by decide), htext, Output.write, Text.encode_ofString]
      rfl
    rw [showOutput, if_neg (by decide), writeAll, hwrite]
    simp [writeAll]
  simp only [present, if_neg hresult, Transcript.shown]
  rw [writeAll_append hwritten, writeAll_append hwritten, hpiece, String.append_assoc]
  simp [showOutput, writeAll]

/-- A command that is announced is carried out and shown. -/
theorem performAndPresent_of_isWhole {σ : Type} [Scene σ] {s : σ} {command : Command}
    (h : command.announcement.IsWhole) (format : Text) :
    (performAndPresent format s command).2 =
      present format command.announcement ((command.perform s).events.map Event.finding)
        ((command.perform s).outcome.mapError Fault.inaccessible) := by
  have hannounce := isWritten_announce.2 h
  rw [performAndPresent]
  split
  · case h_1 text error hw =>
      rw [IsWritten, hw] at hannounce
      cases hannounce
  · rfl

/-- A program that exits with a code has carried out its command. -/
theorem exists_outcome_of_ending {σ : Type} [Scene σ] {s : σ} {command : Command} {code : Nat}
    (h : (performAndPresent format s command).2.ending = .ok code) :
    ∃ outcome, (command.perform s).outcome = .ok outcome := by
  cases ho : (command.perform s).outcome with
  | ok outcome => exact ⟨outcome, rfl⟩
  | error error =>
    rw [performAndPresent] at h
    split at h
    · cases h
    · simp only [ho, Except.mapError, present, Transcript.shown] at h
      unfold Transcript.endingAfter at h
      split at h <;> cases h

/-- With the output in JSON, a command writes one JSON text and a line feed more, and exits with
    the same code. -/
theorem performAndPresent_json {σ : Type} [Scene σ] {s : σ} {command : Command}
    (ho : (command.perform s).outcome = .ok outcome) (hresult : outcome.result ≠ [])
    (hshown : IsEncodable textFormat command.announcement (command.perform s).events outcome)
    (hwritten : ((Json.obj outcome.output).write outputLayout 0).IsWhole) :
    ∃ summary : String, Text.ofString summary = (Json.obj outcome.output).write outputLayout 0 ∧
      (performAndPresent "json" s command).2.out =
        (performAndPresent textFormat s command).2.out ++ summary ++ "\n" ∧
      (performAndPresent textFormat s command).2.ending =
        .ok (if outcome.success then 0 else 1) ∧
      (performAndPresent "json" s command).2.ending = .ok (if outcome.success then 0 else 1) := by
  obtain ⟨summary, hsummary⟩ := Text.exists_ofString hwritten
  have hjson : IsEncodable "json" command.announcement (command.perform s).events outcome := by
    refine { hshown with output := fun _ => ?_ }
    rw [outputText, if_neg (by decide), Text.holdsHalf_append, hwritten, Text.holdsHalf_ofString]
    rfl
  have hending : ∀ {format : Text},
      IsEncodable format command.announcement (command.perform s).events outcome →
      (performAndPresent format s command).2.ending = .ok (if outcome.success then 0 else 1) := by
    intro format he
    rcases ending_performAndPresent ho hresult with ⟨hcode, -⟩ | ⟨_, -, hnot⟩
    · exact hcode
    · exact absurd he hnot
  refine ⟨summary, hsummary, ?_, hending hshown, hending hjson⟩
  rw [performAndPresent_of_isWhole hshown.announcement,
    performAndPresent_of_isWhole hshown.announcement, ho]
  exact out_present_json hresult hshown hsummary

end Console

namespace CommandLine

/-- What is to be done: a check, or the run of an audit that a file describes. -/
inductive Task
  | check (arguments : Command.Arguments)
  | run (path : Text)

namespace Task

/-- The request for it in a format. -/
def request (format : Text) : Task → Request
  | check arguments => .check format arguments
  | run path => .run format path

/-- The command that is made for it. -/
def command (host : Host) : Task → Except Fault Command
  | check arguments => Command.ofArguments host.environment arguments
  | run path => Command.ofFile host.environment host.fs path

/-- The paths on the command line. -/
def paths : Task → List Text
  | check arguments => [arguments.source, arguments.project]
  | run path => [path]

end Task

/-- A command line asks for a task, with its output in a format. -/
structure Asks (args : List Text) (format : Text) (task : Task) : Prop where
  noVersion : args.contains versionOption = false
  request : Request.ofLine args = .ok (task.request format)

variable {task : Task} {host : Host} {command : Command} {args : List Text} {format : Text}

/-- The option that asks for a format may stand in front of any command. -/
theorem ofLine_display {format : Text} (hformat : format ∈ Console.formats) (verb : Verb)
    (rest : List Text) :
    Request.ofLine ("--display" :: format :: verb.name :: rest) = readVerb format verb rest := by
  have hline : readProgram ("--display" :: format :: verb.name :: rest) =
      .ok ⟨[.format format], verb.name :: rest⟩ := by
    cases verb <;> rfl
  have hverb : Verb.ofName? verb.name = some verb := by cases verb <;> rfl
  have hknown : knownFormat format = .ok () := if_pos (List.contains_iff_mem.2 hformat)
  have hnohelp : ([.format format] : List ProgramSetting).contains .help = false := rfl
  have hformatOf : formatOf [.format format] = format := rfl
  simp only [Request.ofLine, hline, hnohelp, hformatOf, hverb, hknown, bind, Except.bind,
    Bool.false_eq_true, if_false]

/-- The arguments of a command are read in the same way for every format. -/
theorem readArguments_request {format : Text} {verb : Verb} {line : Line VerbSetting}
    (h : readArguments format verb line = .ok (task.request format)) (other : Text) :
    readArguments other verb line = .ok (task.request other) := by
  obtain ⟨settings, arguments⟩ := line
  cases verb with
  | check =>
    match arguments, h with
    | [], h | [_], h | [_, _], h => cases h
    | source :: project :: value :: rest, h =>
      simp only [readArguments] at h ⊢
      cases hthreshold : readThreshold .check "ALLOW_NB_TIMES" value with
      | error error => rw [hthreshold] at h; cases h
      | ok threshold =>
        cases hmore : noMore .check rest with
        | error error => rw [hthreshold, hmore] at h; cases h
        | ok _ =>
          rw [hthreshold, hmore] at h
          cases task with
          | check a => cases h; rfl
          | run path => cases h
  | run =>
    match arguments, h with
    | [], h => cases h
    | path :: rest, h =>
      simp only [readArguments] at h ⊢
      cases hmore : noMore .run rest with
      | error error => rw [hmore] at h; cases h
      | ok _ =>
        rw [hmore] at h
        cases task with
        | check a => cases h
        | run path => cases h; rfl
  | version =>
    simp only [readArguments] at h
    cases hmore : noMore .version arguments with
    | error error => rw [hmore] at h; cases h
    | ok _ => rw [hmore] at h; cases task <;> cases h

theorem readVerb_request {format : Text} {verb : Verb} {rest : List Text}
    (h : readVerb format verb rest = .ok (task.request format)) (other : Text) :
    readVerb other verb rest = .ok (task.request other) := by
  unfold readVerb at h ⊢
  cases hline : (readLine (verbChoices verb) true rest).mapError
      (UsageError.option (some verb)) with
  | error error => rw [hline] at h; cases h
  | ok line =>
    rw [hline] at h
    simp only [bind, Except.bind] at h ⊢
    split at h
    · cases task <;> cases h
    · case isFalse hhelp =>
        rw [if_neg hhelp]
        exact readArguments_request h other

/-- A command line with one format asks for the same task as with another one. -/
theorem asks_display {format other : Text} (hformat : format ∈ Console.formats)
    (hother : other ∈ Console.formats) {verb : Verb} {rest : List Text}
    (h : Asks ("--display" :: format :: verb.name :: rest) format task) :
    Asks ("--display" :: other :: verb.name :: rest) other task where
  noVersion := by
    have hversion : ∀ f ∈ Console.formats, (versionOption == f) = false := by decide
    have hno := h.noVersion
    simp only [List.contains_cons, hversion format hformat, hversion other hother] at hno ⊢
    exact hno
  request := by
    have hread := h.request
    rw [ofLine_display hformat] at hread
    rw [ofLine_display hother]
    exact readVerb_request hread other

/-- A command for a task is one for arguments or for a file. -/
theorem Task.isMade (h : task.command host = .ok command) :
    Command.IsMade host.environment host.fs command := by
  cases task with
  | check arguments => exact .arguments h
  | run path => exact .file h

/-- The paths of refused settings are those on the command line, or none. -/
theorem Task.paths_of_misconfigured {message source project : Text}
    (h : task.command host = .ok (.misconfigured message source project)) :
    (source = [] ∨ source ∈ task.paths) ∧ (project = [] ∨ project ∈ task.paths) := by
  cases task with
  | check a =>
    simp only [command, Command.ofArguments] at h
    cases hp : host.environment.expandUser (Path.ofText a.source) with
    | error error => rw [hp] at h; cases h
    | ok p =>
      cases hq : host.environment.expandUser (Path.ofText a.project) with
      | error error => rw [hp, hq] at h; cases h
      | ok q =>
        simp only [hp, hq, Except.mapError, bind, Except.bind] at h
        split at h
        · cases h
        · cases h
        · cases h
          exact ⟨.inr List.mem_cons_self, .inr (List.mem_cons_of_mem _ List.mem_cons_self)⟩
  | run path =>
    simp only [command, Command.ofFile] at h
    split at h
    · cases h
      exact ⟨.inl rfl, .inl rfl⟩
    · cases h
    · split at h
      · cases h
      · split at h
        · cases h
          exact ⟨.inl rfl, .inl rfl⟩
        · cases h

theorem answer_request (host : Host) (version format : Text) (task : Task) :
    answer host version (task.request format) = perform host format (task.command host) := by
  cases task <;> rfl

/-- What the program writes for a task, unless logging cannot be configured. -/
theorem transcript_of_asks (h : Asks args format task) (version : Text) (host : Host) :
    (runProgram version host args).2 =
      match host.configureLogging none .info with
      | (_, some fault) => .broken fault
      | (host, none) => (perform host format (task.command host)).2 := by
  rw [runProgram, if_neg (by rw [h.noVersion]; exact Bool.false_ne_true)]
  rcases host.configureLogging none .info with ⟨logged, fault | _⟩
  · simp only [h.request, answer_request]
  · rfl

/-- The host of the program when logging is configured. -/
def logged (host : Host) : Host := (host.configureLogging none .info).1

/-- A program that exits with a code has made its command, carried it out and shown it. -/
theorem of_ending {version : Text} {code : Nat} (h : Asks args format task)
    (hends : (runProgram version host args).2.ending = .ok code) :
    ∃ command outcome, (host.configureLogging none .info).2 = none ∧
      task.command (logged host) = .ok command ∧
      (command.perform (logged host)).outcome = .ok outcome ∧ outcome.result ≠ [] ∧
      Console.IsEncodable Console.textFormat command.announcement
        (command.perform (logged host)).events outcome ∧
      code = if outcome.success then 0 else 1 := by
  rw [transcript_of_asks h] at hends
  rw [logged]
  rcases hlog : host.configureLogging none .info with ⟨host', _ | fault⟩
  · rw [hlog] at hends
    dsimp only at hends ⊢
    cases hcommand : task.command host' with
    | error fault => rw [hcommand] at hends; cases hends
    | ok command =>
      rw [hcommand] at hends
      obtain ⟨outcome, ho⟩ := Console.exists_outcome_of_ending hends
      have hresult := (Task.isMade hcommand).result_ne_nil ho
      refine ⟨command, outcome, rfl, rfl, ho, hresult,
        (Console.isEncodable_of_ending ho hresult hends).text, ?_⟩
      rcases Console.ending_performAndPresent ho hresult with ⟨hcode, -⟩ | ⟨_, hbroken, -⟩
      · exact Except.ok.inj (hends.symm.trans hcode)
      · cases hends.symm.trans hbroken
  · rw [hlog] at hends
    cases hends

/-- What the program writes for a task whose command has been made. -/
theorem transcript_of_command (h : Asks args format task) (version : Text)
    (hlog : (host.configureLogging none .info).2 = none)
    (hcommand : task.command (logged host) = .ok command) :
    (runProgram version host args).2 =
      (Console.performAndPresent format (logged host) command).2 := by
  rw [transcript_of_asks h]
  unfold logged at hcommand ⊢
  rcases hc : host.configureLogging none .info with ⟨host', fault?⟩
  rw [hc] at hlog hcommand
  obtain rfl := hlog
  dsimp only at hcommand ⊢
  rw [hcommand]
  rfl

/-- If a task comes to its end, with the output in JSON or without, what is written with it is
    what is written without it, one JSON text and a line feed; the exit codes are the same. The
    JSON text is read as the output of the command, unless it has a count of so many digits that
    it cannot be read. -/
theorem runProgram_json (version : Text) (host : Host) (task : Task)
    (plain structured : List Text) (code : Nat) (hplain : Asks plain Console.textFormat task)
    (hstructured : Asks structured "json" task) (hpaths : ∀ path ∈ task.paths, path.IsWhole)
    (hends : (runProgram version host plain).2.ending = .ok code ∨
      (runProgram version host structured).2.ending = .ok code) :
    ∃ (command : Command) (outcome : Outcome) (summary : Summary) (text : String),
      task.command (logged host) = .ok command ∧
      (command.perform (logged host)).outcome = .ok outcome ∧
      outcome.output = summary.members ∧
      (runProgram version host structured).2.out =
        (runProgram version host plain).2.out ++ text ++ "\n" ∧
      (runProgram version host plain).2.ending = .ok code ∧
      (runProgram version host structured).2.ending = .ok code ∧
      ((∀ n ∈ summary.counts, n.natAbs < 10 ^ Number.digitLimit) →
        Json.read (Text.ofString text) = .ok (.obj outcome.output)) := by
  -- Whichever of the two comes to its end, all that is shown in both can be encoded.
  obtain ⟨command, outcome, hlog, hcommand, ho, hresult, hshown, hcode⟩ :=
    hends.elim (of_ending hplain) (of_ending hstructured)
  -- Only here the paths on the command line matter: nothing else shows those of refused settings.
  have hmisconfigured : ∀ message source project,
      command = .misconfigured message source project → source.IsWhole ∧ project.IsWhole := by
    rintro message source project rfl
    have hwhole : ∀ path : Text, path = [] ∨ path ∈ task.paths → path.IsWhole := fun path hp =>
      hp.elim (fun hnil => hnil ▸ rfl) (hpaths path)
    obtain ⟨hsource, hproject⟩ := Task.paths_of_misconfigured hcommand
    exact ⟨hwhole source hsource, hwhole project hproject⟩
  obtain ⟨summary, hmembers, hsummary⟩ :=
    (Task.isMade hcommand).exists_summary ho hshown hmisconfigured
  have hregular : Json.Regular Text.IsWhole (.obj outcome.output) :=
    hmembers ▸ hsummary.regular_members
  obtain ⟨text, htext, hout, hendPlain, hendStructured⟩ :=
    Console.performAndPresent_json ho hresult hshown
      (Json.holdsHalf_write hregular Console.outputLayout 0)
  refine ⟨command, outcome, summary, text, hcommand, ho, hmembers, ?_, ?_, ?_, fun hcounts => ?_⟩
  · rw [transcript_of_command hplain version hlog hcommand,
      transcript_of_command hstructured version hlog hcommand]
    exact hout
  · rw [transcript_of_command hplain version hlog hcommand, hendPlain, hcode]
  · rw [transcript_of_command hstructured version hlog hcommand, hendStructured, hcode]
  · rw [htext]
    refine Json.read_of_isTextOf (Json.isTextOf_write hregular _) ?_
    rw [hmembers]
    exact Summary.within_members hcounts

/-- A resource file with an empty value and a project with a file that holds the other key. The
    keys need escapes, in JSON or in markup. -/
def quaintFiles : FileSystem where
  nodes := [(["s"], .file "\"a\\[b]\" = \"\";\n\"\u0007é\" = \"x\";".toUTF8), (["d"], .directory),
    (["f", "d"], .file "\"\u0007é\"".toUTF8)]
  denied := []
  workingDirectory := []
  distinct := by decide
  named := by decide

/-- A host with these files that keeps no log. -/
def quaintHost : Host where
  fs := quaintFiles
  environment := ⟨[], [], []⟩
  logging := { Logging.initial with configured := true }
  time := ""

/-- A check of these files, with its output in a format. -/
def quaintLine (format : Text) : List Text :=
  ["--display", format, "check", "s", "d", "0", "--log-empty-values", "--verbose"]

/-- The check that this asks for. -/
def quaintTask : Task := .check
  { source := "s"
    project := "d"
    threshold := .int 0
    extensions := .arr []
    reportEmptyValues := .bool true
    verbose := .bool true
    recursive := .bool true
    useIndex := .bool false }

/-- The configuration of the check. -/
def quaintConfig : Config where
  source := Path.ofText "s"
  project := Path.ofText "d"
  threshold := 0
  extensions := []
  reportEmptyValues := true
  verbose := true
  recursive := true
  useIndex := false

/-- What the check finds. -/
def quaintSummary : Summary where
  errors := []
  warnings := ["warning, key '\"a\\[b]\"' has an empty value."]
  source := "s"
  project := "d"
  keysChecked := 2
  unusedKeys := [("\"a\\[b]\"", 0)]
  emptyValueKeys := ["\"a\\[b]\""]
  usedKeys := [("\"\u0007é\"", 1)]

/-- The summary is read back with all characters of the keys. -/
theorem runProgram_json_quaint :
    Asks (quaintLine "text") Console.textFormat quaintTask ∧
      Asks (quaintLine "json") "json" quaintTask ∧
      (∀ path ∈ quaintTask.paths, path.IsWhole) ∧
      (runProgram "1" quaintHost (quaintLine "text")).2.ending = .ok 0 ∧
      ∃ text, (runProgram "1" quaintHost (quaintLine "json")).2.out =
          (runProgram "1" quaintHost (quaintLine "text")).2.out ++ text ++ "\n" ∧
        Json.read (Text.ofString text) = .ok (.obj quaintSummary.members) := by
  have hplain : Asks (quaintLine "text") Console.textFormat quaintTask := ⟨by decide, by cbv⟩
  have hstructured : Asks (quaintLine "json") "json" quaintTask :=
    @asks_display quaintTask _ _ (by decide) (by decide) .check _ hplain
  have hpaths : ∀ path ∈ quaintTask.paths, path.IsWhole := by
    change ∀ path ∈ [("s" : Text), "d"], Text.holdsHalf path = false
    decide
  have hcommand : quaintTask.command (logged quaintHost) = .ok (.audit quaintConfig) := by cbv
  have hperform : (Command.audit quaintConfig).perform (logged quaintHost) =
      (Command.audit quaintConfig).perform quaintFiles :=
    Command.perform_of_isQuiet (Host.isQuiet_of_handlers rfl) _
  have hevents : ((Command.audit quaintConfig).perform quaintFiles).events =
      [⟨.emptyValue, "\"a\\[b]\"", 0⟩, ⟨.unused, "\"a\\[b]\"", 0⟩, ⟨.used, "\"\u0007é\"", 1⟩] := by
    cbv
  have ho : ((Command.audit quaintConfig).perform (logged quaintHost)).outcome =
      .ok ⟨"finished!", true, quaintSummary.members⟩ := by
    rw [hperform]
    cbv
  have hends : (runProgram "1" quaintHost (quaintLine "text")).2.ending = .ok 0 := by
    rw [transcript_of_command hplain "1" rfl hcommand]
    refine ((Console.ending_performAndPresent ho (List.cons_ne_nil _ _)).resolve_right ?_).1
    rintro ⟨_, -, hhalf⟩
    refine hhalf ⟨by decide +kernel, ?_, by decide, fun hf => absurd rfl hf⟩
    rw [hperform, hevents]
    simp only [List.forall_mem_cons]
    exact ⟨by cbv, by cbv, by cbv, List.forall_mem_nil _⟩
  obtain ⟨command, outcome, summary, text, hcommand', ho', hmembers, hout, -, -, hread⟩ :=
    runProgram_json "1" quaintHost quaintTask _ _ 0 hplain hstructured hpaths (.inl hends)
  obtain rfl := Except.ok.inj (hcommand.symm.trans hcommand')
  obtain rfl := Except.ok.inj (ho.symm.trans ho')
  obtain rfl := Summary.members_injective hmembers
  refine ⟨hplain, hstructured, hpaths, hends, text, hout, hread fun n hn => ?_⟩
  have hsmall : ∀ n ∈ [(2 : Int), 0, 1], n.natAbs < 10 ^ 1 := by decide
  exact Nat.lt_of_lt_of_le (hsmall n hn) (Nat.pow_le_pow_right (by decide) (by decide))

end CommandLine

end KeyAudit
