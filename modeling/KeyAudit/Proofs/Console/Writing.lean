import KeyAudit.Console.Transcript
import KeyAudit.Proofs.Console.Markup

/-!
# What is written

A command is shown piece by piece, up to the first that cannot be written. A message never
fails to be rendered, whatever its brackets (`Markup.render_styled`), so the only messages
that cannot be written are those with a half of a surrogate pair that stands alone: it has
no encoding. If nothing that a command shows has such a half, it exits with the code of its
outcome, and otherwise it is broken off and has no exit code
(`ending_performAndPresent`).
-/

namespace KeyAudit

namespace Text

theorem isHalf_of_isControl {c : CodePoint} (h : Console.isControl c = true) :
    c.isHalf = false := by
  cases c with
  | char c => rfl
  | half half =>
    have hle : 0xD800 ≤ (CodePoint.half half).toNat := half.isHalf.1
    simp only [Console.isControl, Bool.or_eq_true, beq_iff_eq] at h
    omega

end Text

namespace Console

/-- All of some pieces are written. -/
def IsWritten (pieces : List Output) : Prop := (writeAll pieces).2 = none

/-- The text of structured output. -/
def outputText (format : Text) (value : Json) : Text :=
  if format = "yaml" then Yaml.document value else value.write outputLayout 0 ++ "\n"

/-- Whatever is shown of a command has an encoding. -/
structure IsEncodable (format announcement : Text) (events : List Finding) (outcome : Outcome) :
    Prop where
  announcement : Text.holdsHalf announcement = false
  events : ∀ f ∈ events, Text.holdsHalf f.message = false
  result : Text.holdsHalf outcome.result = false
  output : format ≠ textFormat → Text.holdsHalf (outputText format (.obj outcome.output)) = false

/-! ## Pieces -/

/-- Laying out a text moves no half out of it. -/
theorem holdsHalf_layOut (s : Text) : Text.holdsHalf (layOut s) = Text.holdsHalf s := by
  have hkept : Text.holdsHalf (s.filter fun c => !isControl c) = Text.holdsHalf s := by
    rw [Text.holdsHalf, List.any_filter]
    refine congrArg (s.any ·) (funext fun c => ?_)
    cases hc : isControl c with
    | false => rfl
    | true => rw [Text.isHalf_of_isControl hc]; rfl
  have hlines : ∀ lines : List Text,
      (lines.map Text.expandTabs).any Text.holdsHalf = lines.any Text.holdsHalf := fun lines => by
    rw [List.any_map]
    exact congrArg (lines.any ·) (funext Text.holdsHalf_expandTabs)
  rw [layOut, Text.holdsHalf_join rfl, hlines, Text.any_holdsHalf_splitOn rfl, hkept]

theorem exists_mapError_eq_ok_iff {ε δ α : Type} {f : ε → δ} {r : Except ε α} :
    (∃ a, r.mapError f = .ok a) ↔ ∃ a, r = .ok a := by
  cases r with
  | ok a => exact iff_of_true ⟨a, rfl⟩ ⟨a, rfl⟩
  | error e => exact iff_of_false nofun nofun

/-- What is written of a line is what its markup shows. -/
theorem write_line {markup shown : Text} (h : Markup.render markup = .ok shown) :
    (Output.line markup).write =
      (Text.encode (layOut shown ++ "\n")).mapError .unencodableLine := by
  rw [Output.write, h]
  rfl

/-- A line is written if what its markup shows has an encoding. -/
theorem write_line_iff {markup shown : Text} (h : Markup.render markup = .ok shown) :
    (∃ text, (Output.line markup).write = .ok text) ↔ Text.holdsHalf shown = false := by
  have hshown : Text.holdsHalf (layOut shown ++ "\n") = Text.holdsHalf shown := by
    rw [Text.holdsHalf_append, holdsHalf_layOut, Text.holdsHalf_ofString, Bool.or_false]
  rw [write_line h, ← hshown, ← Text.encode_eq_ok_iff, exists_mapError_eq_ok_iff]

theorem write_verbatim_iff {text : Text} :
    (∃ written, (Output.verbatim text).write = .ok written) ↔ Text.holdsHalf text = false := by
  rw [Output.write, ← Text.encode_eq_ok_iff, exists_mapError_eq_ok_iff]

theorem isWritten_nil : IsWritten [] := rfl

theorem isWritten_cons {piece : Output} {rest : List Output} :
    IsWritten (piece :: rest) ↔ (∃ text, piece.write = .ok text) ∧ IsWritten rest := by
  rw [IsWritten, writeAll]
  cases piece.write with
  | error error => simp
  | ok text => simp [IsWritten]

theorem isWritten_append {pieces more : List Output} :
    IsWritten (pieces ++ more) ↔ IsWritten pieces ∧ IsWritten more := by
  induction pieces with
  | nil => exact (and_iff_right isWritten_nil).symm
  | cons piece pieces ih => rw [List.cons_append, isWritten_cons, isWritten_cons, ih, and_assoc]

theorem isWritten_singleton {piece : Output} :
    IsWritten [piece] ↔ ∃ text, piece.write = .ok text := by
  rw [isWritten_cons, and_iff_left isWritten_nil]

/-! ## What a command shows -/

/-- A message with a mark in front is written unless it has a half. -/
theorem isWritten_marked {style message : Text} {mark : Char} (hstyle : Markup.IsStyle style)
    (hs : CodePoint.char mark ≠ .char '\\') (hb : CodePoint.char mark ≠ .char '[') :
    IsWritten [marked style [.char mark] message] ↔ Text.holdsHalf message = false := by
  have hmark : Markup.IsPlain [.char mark] := Markup.isPlain_nil.cons hs hb
  have hmessage : Markup.IsPlain (.char ' ' :: Markup.escape message) :=
    (Markup.isPlain_escape message).cons (by decide) (by decide)
  obtain ⟨shown, hshown, hhalf⟩ := Markup.render_styled hstyle hmark hmessage
  have hmarkup : Markup.styled style [.char mark] ++ " " ++ Markup.escape message =
      Markup.styled style [.char mark] ++ .char ' ' :: Markup.escape message :=
    List.append_assoc ..
  rw [isWritten_singleton, marked, hmarkup, write_line_iff hshown, hhalf,
    ← Markup.holdsHalf_escape message]
  rfl

theorem isWritten_success {message : Text} :
    IsWritten (success message) ↔ Text.holdsHalf message = false :=
  isWritten_marked Markup.isStyle_green (by decide) (by decide)

theorem isWritten_warning {message : Text} :
    IsWritten (warning message) ↔ Text.holdsHalf message = false :=
  isWritten_marked Markup.isStyle_yellow (by decide) (by decide)

/-- Without details, a failure is one line. -/
theorem isWritten_failure {message : Text} :
    IsWritten (failure message "") ↔ Text.holdsHalf message = false :=
  isWritten_marked Markup.isStyle_red (by decide) (by decide)

theorem isWritten_event {f : Finding} :
    IsWritten (event (.finding f)) ↔ Text.holdsHalf f.message = false := by
  rw [event]
  cases f.kind with
  | emptyValue => exact isWritten_warning
  | unused => exact isWritten_failure
  | used => exact isWritten_success

theorem isWritten_events {events : List Finding} :
    IsWritten ((events.map Event.finding).flatMap event) ↔
      ∀ f ∈ events, Text.holdsHalf f.message = false := by
  induction events with
  | nil => simp [isWritten_nil]
  | cons f events ih =>
    rw [List.map_cons, List.flatMap_cons, isWritten_append, isWritten_event, ih,
      List.forall_mem_cons]

theorem isWritten_announce {message : Text} :
    IsWritten (announce message) ↔ Text.holdsHalf message = false := by
  rw [announce, ← Text.any_holdsHalf_breakLines]
  induction Text.breakLines message with
  | nil => exact iff_of_true isWritten_nil rfl
  | cons line lines ih =>
    obtain ⟨shown, hshown, hhalf⟩ := Markup.render_styled Markup.isStyle_blue
      (Markup.isPlain_escape line) Markup.isPlain_nil
    rw [List.append_nil] at hshown
    rw [List.map_cons, isWritten_cons, ih, write_line_iff hshown, hhalf, Markup.holdsHalf_escape,
      Text.holdsHalf_nil, Bool.or_false, List.any_cons, Bool.or_eq_false_iff]

theorem isWritten_showResult {outcome : Outcome} :
    IsWritten (showResult outcome) ↔ Text.holdsHalf outcome.result = false := by
  rw [showResult]
  split
  · exact isWritten_success
  · exact isWritten_failure

theorem isWritten_showOutput {format : Text} {outcome : Outcome} :
    IsWritten (showOutput format outcome) ↔
      (format ≠ textFormat → Text.holdsHalf (outputText format (.obj outcome.output)) = false) := by
  rw [showOutput]
  by_cases h : format = textFormat
  · rw [if_pos h]
    exact iff_of_true isWritten_nil fun hne => absurd h hne
  · rw [if_neg h, isWritten_singleton, structured, write_verbatim_iff, outputText]
    exact (imp_iff_right h).symm

/-! ## Commands -/

variable {format announcement : Text} {events : List Finding} {outcome : Outcome}

/-- A command that comes to a result exits with the code of its outcome, if everything it
    shows has an encoding; otherwise it is broken off. -/
theorem ending_present (h : outcome.result ≠ []) :
    ((present format announcement (events.map Event.finding) (.ok outcome)).ending =
        .ok (if outcome.success then 0 else 1) ∧
      IsEncodable format announcement events outcome) ∨
    ∃ error, (present format announcement (events.map Event.finding) (.ok outcome)).ending =
        .error (.unwritable error) ∧
      ¬IsEncodable format announcement events outcome := by
  have hwritten : IsWritten (announce announcement ++ (events.map Event.finding).flatMap event ++
      showResult outcome ++ showOutput format outcome) ↔
        IsEncodable format announcement events outcome := by
    rw [isWritten_append, isWritten_append, isWritten_append, isWritten_announce,
      isWritten_events, isWritten_showResult, isWritten_showOutput]
    exact ⟨fun ⟨⟨⟨ha, he⟩, hr⟩, ho⟩ => ⟨ha, he, hr, ho⟩, fun ⟨ha, he, hr, ho⟩ => ⟨⟨⟨ha, he⟩, hr⟩, ho⟩⟩
  simp only [← hwritten, IsWritten, present, if_neg h, Transcript.shown]
  cases (writeAll _).2 with
  | none => exact .inl ⟨rfl, rfl⟩
  | some error => exact .inr ⟨error, rfl, Option.some_ne_none error⟩

/-- Whether a command is carried out that cannot be announced makes no difference: it has
    no exit code. -/
theorem ending_performAndPresent {σ : Type} [Scene σ] {s : σ} {command : Command}
    (ho : (command.perform s).outcome = .ok outcome) (h : outcome.result ≠ []) :
    ((performAndPresent format s command).2.ending = .ok (if outcome.success then 0 else 1) ∧
      IsEncodable format command.announcement (command.perform s).events outcome) ∨
    ∃ error, (performAndPresent format s command).2.ending = .error (.unwritable error) ∧
      ¬IsEncodable format command.announcement (command.perform s).events outcome := by
  rw [performAndPresent]
  split
  · case h_1 text error hw =>
      refine .inr ⟨error, rfl, fun he => ?_⟩
      have hannounce := isWritten_announce.2 he.announcement
      rw [IsWritten, hw] at hannounce
      cases hannounce
  · simp only [ho]
    exact ending_present h

/-- A program that exits with a code has shown everything. -/
theorem isEncodable_of_ending {σ : Type} [Scene σ] {s : σ} {command : Command} {code : Nat}
    (ho : (command.perform s).outcome = .ok outcome) (h : outcome.result ≠ [])
    (hcode : (performAndPresent format s command).2.ending = .ok code) :
    IsEncodable format command.announcement (command.perform s).events outcome := by
  rcases ending_performAndPresent ho h with ⟨-, he⟩ | ⟨_, hbroken, -⟩
  · exact he
  · cases hcode.symm.trans hbroken

end Console

end KeyAudit
