import KeyAudit.Host
import KeyAudit.Proofs.FileSystem.Place

/-!
# Configuring logging

Logging is configured and reset any number of times, and configuring it may fail halfway. In
between lines are logged, and files are changed from outside (`Act`).

* One configuration of a host without one either fails, and leaves logging without a handler and
  open to the next attempt, or adds one handler (`configureLogging_cases`). On a host that has one
  it does nothing.
* What is set up stays until logging is reset (`keepsSetUp_after`). So logging is configured if
  and only if a configuration is *in force*: it is the first one to succeed since the last reset
  (`configured_of_split`, `exists_inForce`).
* The handler and the level are those of the configuration in force (`logging_after`). The file
  is opened in the directory that the absolute path of the given one leads to, where every `..` is
  taken by its name. That is the given directory if its path has no `..`; it may be another one
  with a `..` after a link (`not_isFileIn_sidestepped`).
-/

namespace KeyAudit

/-! ## What stays -/

/-- Logging is set up as before, whatever has been logged. -/
structure Logging.KeepsSetUp (s s' : Logging) : Prop where
  configured : s'.configured = s.configured
  level : s'.level = s.level
  files : s'.handlers.map Handler.file = s.handlers.map Handler.file

/-- There is one handler if logging is configured, and none otherwise. -/
def Logging.IsConsistent (s : Logging) : Prop :=
  s.handlers.length = if s.configured then 1 else 0

namespace Logging

variable {s s' s'' : Logging}

theorem KeepsSetUp.refl (s : Logging) : s.KeepsSetUp s := ⟨rfl, rfl, rfl⟩

theorem KeepsSetUp.trans (h : s.KeepsSetUp s') (h' : s'.KeepsSetUp s'') : s.KeepsSetUp s'' where
  configured := h'.configured.trans h.configured
  level := h'.level.trans h.level
  files := h'.files.trans h.files

theorem KeepsSetUp.isConsistent (h : s.KeepsSetUp s') (hs : s.IsConsistent) :
    s'.IsConsistent := by
  have hlength := congrArg List.length h.files
  rw [List.length_map, List.length_map] at hlength
  rw [IsConsistent, hlength, h.configured, hs]

theorem IsConsistent.handlers_eq_nil (h : s.IsConsistent) (hs : s.configured = false) :
    s.handlers = [] := by
  rw [IsConsistent, hs] at h
  exact List.length_eq_zero_iff.1 h

end Logging

/-- A handler appends to the file of its path. -/
theorem Handler.file_opened {fs : FileSystem} {h : Handler} {result : FileSystem × Handler}
    (ho : h.opened fs = .ok result) : result.2.file = h.file := by
  rw [opened] at ho
  split at ho
  · cases hs : Stream.opened fs h.file with
    | error error => rw [hs] at ho; cases ho
    | ok result => rw [hs] at ho; cases ho; rfl
  · cases ho
    rfl

theorem Handler.file_append (fs : FileSystem) (h : Handler) (text : Text) :
    (h.append fs text).2.file = h.file := by
  rw [append]
  cases ho : h.opened fs with
  | error error => rfl
  | ok result =>
    have hfile : result.2.file = h.file := file_opened ho
    simp only
    split
    · exact hfile
    · exact hfile

theorem Handler.file_emit (fs : FileSystem) (h : Handler) (text : Text) :
    (h.emit fs text).2.file = h.file := by
  rw [emit]
  split
  · exact file_append fs h text
  cases ho : h.opened fs with
  | error error => rfl
  | ok result =>
    have hfile : result.2.file = h.file := file_opened ho
    simp only
    split
    · rw [file_append, hfile]
    · split
      · rw [file_append, hfile]
      · exact hfile

theorem Logging.map_file_appendAll (fs : FileSystem) (text : Text) (handlers : List Handler) :
    (appendAll fs text handlers).2.map Handler.file = handlers.map Handler.file := by
  induction handlers generalizing fs with
  | nil => rfl
  | cons h handlers ih =>
    rw [appendAll, List.map_cons, List.map_cons, ih, Handler.file_emit]

theorem Logging.keepsSetUp_prepare (s : Logging) (line : LogLine) :
    s.KeepsSetUp (s.prepare line) := by
  rw [prepare, decideOn, openChannel]
  split
  · split
    · exact .refl s
    · exact ⟨rfl, rfl, rfl⟩
  · split
    · exact ⟨rfl, rfl, rfl⟩
    · exact ⟨rfl, rfl, rfl⟩

theorem Logging.keepsSetUp_emit (s : Logging) (time : Text) (fs : FileSystem) (line : LogLine) :
    s.KeepsSetUp (s.emit time fs line).2 := by
  refine (s.keepsSetUp_prepare line).trans ?_
  rw [emit]
  simp only
  split
  · exact ⟨rfl, rfl, map_file_appendAll fs _ _⟩
  · exact .refl _

theorem Logging.keepsSetUp_afterRemoval (s : Logging) (before after : FileSystem) :
    s.KeepsSetUp (s.afterRemoval before after) :=
  ⟨rfl, rfl, List.map_map⟩

namespace Host

open FileSystem Logging

/-! ## What happens to a host -/

/-- What happens to a host. -/
inductive Act
  /-- Logging is configured. -/
  | configure (home? : Option Path) (level : Level)
  /-- Logging is reset. -/
  | reset
  /-- A line is logged. -/
  | log (line : LogLine)
  /-- Files and the environment are changed from outside, as time goes on. -/
  | change (fs : FileSystem) (environment : Environment) (time : Text)

/-- The host after an act. -/
def act (host : Host) : Act → Host
  | .configure home? level => (host.configureLogging home? level).1
  | .reset => host.resetLogging
  | .log line => host.logLine line
  | .change fs environment time =>
    { host.withFiles fs with environment := environment, time := time }

/-- The host after some acts. -/
def after (host : Host) (acts : List Act) : Host := acts.foldl act host

/-- A host on which nothing has been logged. -/
def fresh (fs : FileSystem) (environment : Environment) (time : Text) : Host :=
  ⟨fs, environment, .initial, time⟩

/-- The directory for the log file: the one that is given, or that of the program. -/
def logHome (host : Host) (home? : Option Path) : Except HomeError Path :=
  home?.elim (host.environment.programHome host.fs) .ok

variable {host start : Host} {home? : Option Path} {level : Level} {acts before since : List Act}
  {a : Act} {home : Path} {made : FileSystem} {l : Location}

theorem after_append (start : Host) (acts more : List Act) :
    start.after (acts ++ more) = (start.after acts).after more :=
  List.foldl_append

theorem after_concat (start : Host) (acts : List Act) (a : Act) :
    start.after (acts ++ [a]) = (start.after acts).act a :=
  after_append start acts [a]

/-! ## One configuration -/

/-- The path of the log file in a directory. -/
def logFile (fs : FileSystem) (home : Path) : Path := absolutePath fs (home.child fileName)

/-- The host after logging has been configured to the file at a location. -/
def attach (host : Host) (level : Level) (made : FileSystem) (file : Path) (l : Location) : Host :=
  { host with
    fs := made.put l (.file (made.contentAt l))
    logging :=
      { host.logging.setLevel level with
        handlers := host.logging.handlers ++ [⟨file, .attached l⟩]
        configured := true } }

/-- The directory for the log file can be made, and the file be opened there. -/
structure CanLogTo (host : Host) (home? : Option Path) (home : Path) (made : FileSystem)
    (l : Location) : Prop where
  given : host.logHome home? = .ok home
  makes : host.fs.makeDirectories home = (made, none)
  place : made.filePlace (logFile made home) = .ok l

theorem configureLogging_of_configured (h : host.logging.configured = true) (home? : Option Path)
    (level : Level) : host.configureLogging home? level = (host, none) :=
  if_pos h

/-- A configuration of a host without one fails, if its file cannot be opened, or else it adds a
    handler for the file. -/
theorem configureLogging_cases (h : host.logging.configured = false) (home? : Option Path)
    (level : Level) :
    (∃ fault, (host.configureLogging home? level).2 = some fault ∧
      (host.configureLogging home? level).1.logging.configured = false ∧
      (host.configureLogging home? level).1.logging.handlers = host.logging.handlers ∧
      ∀ home made l, ¬host.CanLogTo home? home made l) ∨
    ∃ home made l, host.CanLogTo home? home made l ∧
      host.configureLogging home? level =
        (host.attach level made (logFile made home) l, none) := by
  have hn : ¬host.logging.configured = true := by simp [h]
  rw [configureLogging, if_neg hn, ← logHome]
  cases hhome : host.logHome home? with
  | error error =>
    refine .inl ⟨_, rfl, h, rfl, fun home made l ho => ?_⟩
    cases hhome.symm.trans ho.given
  | ok home =>
    simp only [Logging.configure, if_neg hn, Logging.configureIn]
    -- Only this directory and this file could be the ones that are opened.
    have hhome' : ∀ home' made' l', host.CanLogTo home? home' made' l' → home' = home :=
      fun _ _ _ ho => Except.ok.inj (ho.given.symm.trans hhome)
    rcases hmade : host.fs.makeDirectories home with ⟨made, _ | error⟩
    · cases hplace : made.filePlace (logFile made home) with
      | error error =>
        have hopened : Stream.opened made (logFile made home) = .error error := by
          rw [Stream.opened, hplace]
        rw [logFile] at hopened
        simp only [hopened]
        refine .inl ⟨_, rfl, h, rfl, fun home' made' l' ho => ?_⟩
        obtain rfl := hhome' home' made' l' ho
        obtain rfl := congrArg Prod.fst (hmade.symm.trans ho.makes)
        cases hplace.symm.trans ho.place
      | ok l =>
        have hopened : Stream.opened made (logFile made home) =
            .ok (made.put l (.file (made.contentAt l)), .attached l) := by
          rw [Stream.opened, hplace]
        rw [logFile] at hopened
        simp only [hopened]
        exact .inr ⟨home, made, l, ⟨hhome, hmade, hplace⟩, rfl⟩
    · refine .inl ⟨_, rfl, h, rfl, fun home' made' l' ho => ?_⟩
      obtain rfl := hhome' home' made' l' ho
      cases congrArg Prod.snd (hmade.symm.trans ho.makes)

theorem succeeds_iff (h : host.logging.configured = false) (home? : Option Path) (level : Level) :
    (host.configureLogging home? level).2 = none ↔
      ∃ home made l, host.CanLogTo home? home made l := by
  rcases configureLogging_cases h home? level with ⟨_, hfault, -, -, hno⟩ | ⟨home, made, l, ho, he⟩
  · rw [hfault]
    exact iff_of_false nofun fun ⟨home, made, l, ho⟩ => hno home made l ho
  · rw [he]
    exact iff_of_true rfl ⟨home, made, l, ho⟩

/-- A configuration that succeeds leaves logging configured. -/
theorem configured_of_succeeds (h : (host.configureLogging home? level).2 = none) :
    (host.act (.configure home? level)).logging.configured = true := by
  rw [act]
  cases hconfigured : host.logging.configured with
  | true => rw [configureLogging_of_configured hconfigured, hconfigured]
  | false =>
    rcases configureLogging_cases hconfigured home? level with ⟨fault, hfault, -⟩ | ⟨_, _, _, -, he⟩
    · cases h.symm.trans hfault
    · rw [he]
      rfl

/-! ## All that happens -/

/-- What is set up is kept by everything but a reset. -/
theorem keepsSetUp_act (h : host.logging.configured = true) (ha : a ≠ .reset) :
    host.logging.KeepsSetUp (host.act a).logging := by
  cases a with
  | configure home? level =>
    rw [act, configureLogging_of_configured h]
    exact .refl _
  | reset => exact absurd rfl ha
  | log line => exact host.logging.keepsSetUp_emit host.time host.fs line
  | change fs environment time => exact host.logging.keepsSetUp_afterRemoval host.fs fs

theorem keepsSetUp_after (h : host.logging.configured = true) (hreset : .reset ∉ acts) :
    host.logging.KeepsSetUp (host.after acts).logging := by
  induction acts generalizing host with
  | nil => exact .refl _
  | cons a acts ih =>
    obtain ⟨ha, hacts⟩ := not_or.1 (mt List.mem_cons.2 hreset)
    have hact := keepsSetUp_act h (Ne.symm ha)
    exact hact.trans (ih (hact.configured.trans h) hacts)

/-- Only a configuration that succeeds makes logging configured. -/
theorem exists_of_configured_act (h : host.logging.configured = false)
    (ha : (host.act a).logging.configured = true) :
    ∃ home? level, a = .configure home? level ∧
      (host.configureLogging home? level).2 = none := by
  cases a with
  | configure home? level =>
    refine ⟨home?, level, rfl, ?_⟩
    rcases configureLogging_cases h home? level with ⟨_, -, hc, -⟩ | ⟨_, _, _, -, he⟩
    · exact absurd (hc.symm.trans ha) Bool.false_ne_true
    · rw [he]
  | reset => cases ha
  | log line =>
    have hlog := host.logging.keepsSetUp_emit host.time host.fs line
    exact absurd (h.symm.trans (hlog.configured.symm.trans ha)) Bool.false_ne_true
  | change fs environment time => exact absurd (h.symm.trans ha) Bool.false_ne_true

theorem isConsistent_act (h : host.logging.IsConsistent) (a : Act) :
    (host.act a).logging.IsConsistent := by
  cases a with
  | configure home? level =>
    rw [act]
    cases hconfigured : host.logging.configured with
    | true => rwa [configureLogging_of_configured hconfigured]
    | false =>
      have hnil := h.handlers_eq_nil hconfigured
      rcases configureLogging_cases hconfigured home? level with
        ⟨_, -, hc, hh, -⟩ | ⟨home, made, l, -, he⟩
      · rw [IsConsistent, hc, hh, hnil]
        rfl
      · rw [he, IsConsistent, attach, hnil]
        rfl
  | reset => rfl
  | log line => exact (host.logging.keepsSetUp_emit host.time host.fs line).isConsistent h
  | change fs environment time =>
    exact (host.logging.keepsSetUp_afterRemoval host.fs fs).isConsistent h

/-- A configuration that fails leaves no handler. -/
theorem unconfigured_of_fails (h : host.logging.IsConsistent)
    (hfails : (host.configureLogging home? level).2 ≠ none) :
    (host.configureLogging home? level).1.logging.configured = false ∧
      (host.configureLogging home? level).1.logging.handlers = [] := by
  cases hconfigured : host.logging.configured with
  | true =>
    rw [configureLogging_of_configured hconfigured] at hfails
    exact absurd rfl hfails
  | false =>
    rcases configureLogging_cases hconfigured home? level with ⟨_, -, hc, hh, -⟩ | ⟨_, _, _, -, he⟩
    · exact ⟨hc, hh.trans (h.handlers_eq_nil hconfigured)⟩
    · exact absurd (congrArg Prod.snd he) hfails

theorem isConsistent_after (h : start.logging.IsConsistent) (acts : List Act) :
    (start.after acts).logging.IsConsistent := by
  induction acts using List.reverseRecOn with
  | nil => exact h
  | append_singleton acts a ih =>
    rw [after_concat]
    exact isConsistent_act ih a

/-- Of some acts a configuration is in force: it has succeeded, as the first one since the last
    reset. -/
structure InForce (start : Host) (acts before : List Act) (home? : Option Path) (level : Level)
    (since : List Act) : Prop where
  split : acts = before ++ .configure home? level :: since
  succeeds : ((start.after before).configureLogging home? level).2 = none
  first : ∀ earlier home?' level' later, before = earlier ++ .configure home?' level' :: later →
    ((start.after earlier).configureLogging home?' level').2 = none → .reset ∈ later
  kept : .reset ∉ since

/-- Logging is configured from a configuration that succeeds to the next reset. -/
theorem configured_of_split (hsplit : acts = before ++ .configure home? level :: since)
    (h : ((start.after before).configureLogging home? level).2 = none) (hreset : .reset ∉ since) :
    (start.after acts).logging.configured = true := by
  have hset := configured_of_succeeds h
  rw [hsplit, after_append]
  exact (keepsSetUp_after hset hreset).configured.trans hset

/-- If logging is configured, then by a configuration that is in force. -/
theorem exists_inForce (hstart : start.logging.configured = false)
    (h : (start.after acts).logging.configured = true) :
    ∃ before home? level since, start.InForce acts before home? level since := by
  induction acts using List.reverseRecOn with
  | nil => exact absurd (hstart.symm.trans h) Bool.false_ne_true
  | append_singleton acts a ih =>
    rw [after_concat] at h
    cases hbefore : (start.after acts).logging.configured with
    | true =>
      -- What has been in force still is.
      have ha : a ≠ .reset := by
        rintro rfl
        cases h
      obtain ⟨before, home?, level, since, hforce⟩ := ih hbefore
      refine ⟨before, home?, level, since ++ [a], ?_, hforce.succeeds, hforce.first, ?_⟩
      · rw [hforce.split, List.append_assoc, List.cons_append]
      · rw [List.mem_append, List.mem_singleton]
        exact not_or.2 ⟨hforce.kept, Ne.symm ha⟩
    | false =>
      obtain ⟨home?, level, rfl, hsucceeds⟩ := exists_of_configured_act hbefore h
      refine ⟨acts, home?, level, [], rfl, hsucceeds, ?_, List.not_mem_nil⟩
      intro earlier home?' level' later hsplit hearlier
      by_contra hreset
      have hconfigured := configured_of_split hsplit hearlier hreset
      exact absurd (hbefore.symm.trans hconfigured) Bool.false_ne_true

/-- Before the configuration that is in force logging has not been configured. -/
theorem InForce.before_eq_false (h : start.InForce acts before home? level since)
    (hstart : start.logging.configured = false) :
    (start.after before).logging.configured = false := by
  refine Bool.eq_false_iff.2 fun hconfigured => ?_
  obtain ⟨earlier, home?', level', later, hforce⟩ := exists_inForce hstart hconfigured
  exact hforce.kept (h.first earlier home?' level' later hforce.split hforce.succeeds)

/-! ## The configuration in force -/

/-- The one handler of a host appends to the log file at a location, which is in the directory
    that the absolute path of a home leads to. -/
structure WritesTo (host : Host) (home : Path) (l : Location) : Prop where
  handlers : host.logging.handlers = [⟨logFile host.fs home, .attached l⟩]
  place : host.fs.IsFileIn (absolutePath host.fs home) fileName l

theorem logFile_eq (fs : FileSystem) (home : Path) :
    logFile fs home = (absolutePath fs home).child fileName :=
  absolutePath_child (by unfold ArePlain; decide) (by decide)

theorem absolutePath_put (fs : FileSystem) (l : Location) (node : Node) (p : Path) :
    absolutePath (fs.put l node) p = absolutePath fs p := by
  rw [absolutePath, absolutePath, start_put]

/-- A host without handlers whose log file has been opened writes to it. -/
theorem CanLogTo.writesTo (h : host.CanLogTo home? home made l) (hnil : host.logging.handlers = []) :
    (host.attach level made (logFile made home) l).WritesTo home l := by
  have hplace := h.place
  rw [logFile_eq] at hplace
  constructor
  · rw [attach, hnil, logFile, logFile, absolutePath_put]
    rfl
  · rw [attach, absolutePath_put]
    exact (isFileIn_of_filePlace hplace).put

theorem after_of_configures (h : host.logging.configured = true)
    (hacts : ∀ a ∈ acts, ∃ home? level, a = .configure home? level) : host.after acts = host := by
  induction acts with
  | nil => rfl
  | cons a acts ih =>
    obtain ⟨⟨home?, level, rfl⟩, hrest⟩ := List.forall_mem_cons.1 hacts
    have hact : host.act (.configure home? level) = host := by
      rw [act, configureLogging_of_configured h]
    rw [after, List.foldl_cons, hact]
    exact ih hrest

/-- What the configuration in force has set up: the host wrote to its file when it was done, and
    still does if logging has only been configured since. -/
theorem InForce.exists_writesTo (h : start.InForce acts before home? level since)
    (hstart : start.logging = .initial) :
    ∃ home l, (start.after before).logHome home? = .ok home ∧
      ((start.after before).act (.configure home? level)).WritesTo home l ∧ Fits home ∧
      (start.after acts).logging.level = level ∧
      (start.after acts).logging.handlers.map Handler.file =
        ((start.after before).act (.configure home? level)).logging.handlers.map Handler.file ∧
      ((∀ a ∈ since, ∃ home? level, a = .configure home? level) →
        start.after acts = (start.after before).act (.configure home? level)) := by
  have hbefore := h.before_eq_false (hstart ▸ rfl)
  have hnil := (isConsistent_after (hstart ▸ rfl) before).handlers_eq_nil hbefore
  have hset := configured_of_succeeds h.succeeds
  have hafter : start.after acts =
      ((start.after before).act (.configure home? level)).after since := by
    rw [h.split, after_append]
    rfl
  have hkept := keepsSetUp_after hset h.kept
  rw [← hafter] at hkept
  rcases configureLogging_cases hbefore home? level with ⟨_, hfault, -⟩ | ⟨home, made, l, ho, he⟩
  · cases h.succeeds.symm.trans hfault
  have hact : (start.after before).act (.configure home? level) =
      (start.after before).attach level made (logFile made home) l := by
    rw [act, he]
  refine ⟨home, l, ho.given, hact ▸ ho.writesTo hnil, fits_of_makeDirectories ho.makes, ?_,
    hkept.files, fun hsince => ?_⟩
  · rw [hkept.level, hact]
    rfl
  · rw [hafter, after_of_configures hset hsince]

/-- Logging after any acts: there is one handler if it is configured, and none otherwise. It is
    configured if and only if a configuration is in force, by which the level and the file of the
    handler are given; this file is in the home that has been chosen, unless there is a `..` on its
    path. If logging is configured a configuration does nothing, otherwise it succeeds if and only
    if its file can be opened, whatever has failed before: one that fails leaves logging without a
    handler, and not configured. -/
theorem logging_after (fs : FileSystem) (environment : Environment) (time : Text)
    (acts : List Act) :
    let start := fresh fs environment time
    let host := start.after acts
    (host.logging.handlers.length = if host.logging.configured then 1 else 0) ∧
    (host.logging.configured = true ↔
      ∃ before home? level since, start.InForce acts before home? level since) ∧
    (∀ before home? level since, start.InForce acts before home? level since →
      let set := (start.after before).act (.configure home? level)
      ∃ home l, (start.after before).logHome home? = .ok home ∧ set.WritesTo home l ∧
        (set.fs.HasRealWorkingDirectory → ArePlain home.names →
          set.fs.IsFileIn home fileName l) ∧
        host.logging.level = level ∧
        host.logging.handlers.map Handler.file = set.logging.handlers.map Handler.file ∧
        ((∀ a ∈ since, ∃ home? level, a = .configure home? level) → host = set)) ∧
    (host.logging.configured = true →
      ∀ home? level, host.configureLogging home? level = (host, none)) ∧
    (host.logging.configured = false →
      ∀ home? level, (host.configureLogging home? level).2 = none ↔
        ∃ home made l, host.CanLogTo home? home made l) ∧
    ∀ home? level, (host.configureLogging home? level).2 ≠ none →
      let failed := start.after (acts ++ [.configure home? level])
      failed.logging.configured = false ∧ failed.logging.handlers = [] := by
  intro start host
  have hconsistent := isConsistent_after (show start.logging.IsConsistent from rfl) acts
  refine ⟨hconsistent, ⟨exists_inForce rfl, ?_⟩, ?_, ?_, fun h => succeeds_iff h, ?_⟩
  · rintro ⟨before, home?, level, since, h⟩
    exact configured_of_split h.split h.succeeds h.kept
  · intro before home? level since h set
    obtain ⟨home, l, hhome, hwrites, hfits, hkept⟩ := h.exists_writesTo rfl
    exact ⟨home, l, hhome, hwrites, fun hreal hplain =>
      isFileIn_of_isFileIn_absolutePath hreal hfits hplain hwrites.place, hkept⟩
  · exact fun h => configureLogging_of_configured h
  · intro home? level hfails failed
    rw [show failed = _ from after_concat start acts _]
    exact unconfigured_of_fails hconsistent hfails

/-- A file, and a link to a directory in another one. -/
def sidestepped : FileSystem where
  nodes := [
    (["f"], .file "x".toUTF8),
    (["o"], .directory),
    (["d", "o"], .directory),
    (["lnk"], .link "o/d")]
  denied := []
  workingDirectory := []
  distinct := by decide
  named := by decide

/-- A file is in the way of the first configuration, the second one succeeds, and the third one
    does nothing. -/
theorem logging_after_obstructed :
    let start := fresh sidestepped ⟨[], [], []⟩ ""
    let host := start.after [.configure (some ⟨.top, ["f"]⟩) .info,
      .configure (some ⟨.top, ["n"]⟩) .debug, .configure (some ⟨.top, ["o"]⟩) .error]
    (start.configureLogging (some ⟨.top, ["f"]⟩) .info).2 ≠ none ∧
      host.logging.configured = true ∧ host.logging.handlers.length = 1 ∧
      host.logging.level = .debug ∧
      ∃ l, host.WritesTo ⟨.top, ["n"]⟩ l ∧ host.fs.IsFileIn ⟨.top, ["n"]⟩ fileName l := by
  intro start host
  obtain ⟨hlength, hconfigured, hforce, -⟩ := logging_after sidestepped ⟨[], [], []⟩ ""
    [.configure (some ⟨.top, ["f"]⟩) .info, .configure (some ⟨.top, ["n"]⟩) .debug,
      .configure (some ⟨.top, ["o"]⟩) .error]
  have hfails : (start.configureLogging (some ⟨.top, ["f"]⟩) .info).2 ≠ none := by
    cbv
    exact Option.some_ne_none _
  have hsecond : start.InForce
      [.configure (some ⟨.top, ["f"]⟩) .info, .configure (some ⟨.top, ["n"]⟩) .debug,
        .configure (some ⟨.top, ["o"]⟩) .error]
      [.configure (some ⟨.top, ["f"]⟩) .info] (some ⟨.top, ["n"]⟩) .debug
      [.configure (some ⟨.top, ["o"]⟩) .error] := {
    split := rfl
    succeeds := by cbv
    first := fun earlier home?' level' later hsplit hsucceeds => by
      cases earlier with
      | nil =>
        cases hsplit
        exact absurd hsucceeds hfails
      | cons a earlier => simp at hsplit
    kept := by simp }
  have hset := hconfigured.2 ⟨_, _, _, _, hsecond⟩
  obtain ⟨home, l, hhome, hwrites, hgiven, hlevel, -, hsame⟩ := hforce _ _ _ _ hsecond
  obtain rfl := Except.ok.inj hhome
  rw [← hsame fun a ha => ⟨_, _, List.mem_singleton.1 ha⟩] at hwrites hgiven
  rw [hset] at hlength
  exact ⟨hfails, hset, hlength, hlevel, l, hwrites,
    hgiven (by cbv) (by unfold ArePlain; decide)⟩

/-- The link leads to another place than its name tells, and so the file is not in the directory
    that has been given and made. -/
theorem not_isFileIn_sidestepped :
    let home : Path := ⟨.workingDirectory, ["lnk", ".."]⟩
    let host := (fresh sidestepped ⟨[], [], []⟩ "").after [.configure (some home) .info]
    host.logging.configured = true ∧
      host.logging.handlers = [⟨⟨.top, ["locheck.log"]⟩, .attached ["locheck.log"]⟩] ∧
      host.fs.IsFileIn home fileName ["locheck.log", "o"] ∧
      ¬host.fs.IsFileIn home fileName ["locheck.log"] := by
  refine ⟨by cbv, by cbv, (and_iff_left_of_imp fun hin hout => ?_).2 ?_⟩
  · exact absurd (hin.unique hout) (by decide)
  · exact ⟨["o"], by cbv, by cbv, by cbv⟩

end Host

end KeyAudit
