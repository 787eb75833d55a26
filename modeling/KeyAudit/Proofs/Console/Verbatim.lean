import KeyAudit.Proofs.Console.Shown
import KeyAudit.Proofs.Console.Writing

/-!
# Report lines

A report line is the mark of a finding and its message, which is escaped. The message is the
key with some wording around it that has neither backslashes nor brackets, so what is shown of
the message is the message with what is shown of the key (`Finding.unslashed_message`). Nothing
in it is laid out anew if nothing in the key moves the cursor (`layOut_of_isStill`).

* `event_verbatim`: such a finding is shown as one line, unless its key has a half; it is the
  message as it is, unless the key has a backslash in front of a bracket that opens no tag;
* `not_verbatim_escaped`: such a backslash is not shown.
-/

namespace KeyAudit

namespace Console

/-- Nothing that moves the cursor: no line feed, no tab and no other control character. -/
def IsStill (s : Text) : Prop := ∀ c ∈ s, 0x20 ≤ c.toNat

instance (s : Text) : Decidable (IsStill s) := inferInstanceAs (Decidable (∀ c ∈ s, _))

/-- A text in which nothing moves the cursor is laid out as it is. -/
theorem layOut_of_isStill {s : Text} (h : IsStill s) : layOut s = s := by
  have hkept : (s.filter fun c => !isControl c) = s := List.filter_eq_self.2 fun c hc => by
    have hle := h c hc
    simp [isControl]
    omega
  have hfeed : CodePoint.char '\n' ∉ s := fun hc => absurd (h _ hc) (by decide)
  have htab : CodePoint.char '\t' ∉ s := fun hc => absurd (h _ hc) (by decide)
  rw [layOut, hkept, Text.splitOn_eq, List.splitOn_eq_singleton hfeed, List.map_singleton,
    Text.expandTabs, Text.splitOn_eq, List.splitOn_eq_singleton htab]
  simp [Text.fillTabs, Text.join, List.intercalate]

end Console

/-! ## Messages -/

/-- What may be written around a key: nothing that moves the cursor, no half, and neither
    backslashes nor brackets. -/
structure CodePoint.IsWording (c : CodePoint) : Prop where
  still : 0x20 ≤ c.toNat
  whole : c.isHalf = false
  slash : c ≠ .char '\\'
  opening : c ≠ .char '['
  closing : c ≠ .char ']'

instance (c : CodePoint) : Decidable c.IsWording :=
  decidable_of_iff (0x20 ≤ c.toNat ∧ c.isHalf = false ∧ c ≠ .char '\\' ∧ c ≠ .char '[' ∧
    c ≠ .char ']') ⟨fun ⟨h₁, h₂, h₃, h₄, h₅⟩ => ⟨h₁, h₂, h₃, h₄, h₅⟩,
      fun h => ⟨h.still, h.whole, h.slash, h.opening, h.closing⟩⟩

/-- A text that may be written around a key. -/
def IsWording (s : Text) : Prop := ∀ c ∈ s, c.IsWording

instance (s : Text) : Decidable (IsWording s) := inferInstanceAs (Decidable (∀ c ∈ s, _))

namespace IsWording

variable {s t : Text}

theorem append (hs : IsWording s) (ht : IsWording t) : IsWording (s ++ t) := fun c hc =>
  (List.mem_append.1 hc).elim (hs c) (ht c)

theorem cons {c : CodePoint} (hc : IsWording [c]) (hs : IsWording s) : IsWording (c :: s) :=
  append hc hs

theorem isStill (h : IsWording s) : Console.IsStill s := fun c hc => (h c hc).still

theorem holdsHalf (h : IsWording s) : Text.holdsHalf s = false :=
  Text.holdsHalf_eq_false_iff.2 fun c hc => (h c hc).whole

theorem closeTag (h : IsWording s) : Markup.closeTag s = none := by
  induction s with
  | nil => rfl
  | cons c s ih =>
    have hc := h c List.mem_cons_self
    rw [Markup.closeTag, if_neg hc.closing, if_neg hc.opening,
      ih fun d hd => h d (List.mem_cons_of_mem _ hd)]
    rfl

theorem unslashed_append (h : IsWording s) (t : Text) :
    Markup.unslashed (s ++ t) = s ++ Markup.unslashed t :=
  Markup.dropSlashes_append_of_not_mem (fun hc => (h _ hc).opening rfl) fun hlast =>
    absurd rfl (h _ (List.mem_of_getLast? hlast)).slash

theorem toString (n : Int) : IsWording (toString n : String) := by
  have hdigits : ∀ n, IsWording (Text.ofChars (Nat.toDigits 10 n)) := fun n c hc => by
    obtain ⟨d, hd, rfl⟩ := List.mem_map.1 hc
    have hdigit := Nat.isDigit_of_mem_toDigits (by decide) (by decide) hd
    have hbounds : 48 ≤ d.toNat ∧ d.toNat ≤ 57 := Char.isDigit_iff_toNat.1 hdigit
    have hne : ∀ {e : Char}, 57 < e.toNat → CodePoint.char d ≠ .char e := fun he hde => by
      rw [CodePoint.char.inj hde] at hbounds
      omega
    exact ⟨Nat.le_trans (by decide) hbounds.1, rfl, hne (by decide), hne (by decide),
      hne (by decide)⟩
  cases n with
  | ofNat n => exact Text.ofString_toString_ofNat n ▸ hdigits n
  | negSucc n => exact Text.ofString_toString_negSucc n ▸ cons (by decide) (hdigits (n + 1))

end IsWording

namespace Finding

/-- The mark of a kind of findings. -/
def mark : FindingKind → Char
  | .emptyValue => '⚠'
  | .unused => '✗'
  | .used => '✓'

theorem isWording_times (count : Int) : IsWording (times count) := by
  rw [times]
  split <;> decide

/-- The wording around the key in a message. -/
theorem exists_message_eq (kind : FindingKind) (count : Int) : ∃ before after : Text,
    (∀ key, (⟨kind, key, count⟩ : Finding).message = before ++ key ++ after) ∧
      IsWording before ∧ IsWording after ∧ after.head? = some (.char '\'') ∧
        after.getLast? = some (.char '.') := by
  cases kind with
  | emptyValue =>
    exact ⟨"warning, key '", "' has an empty value.", fun key => rfl, by decide, by decide, rfl, rfl⟩
  | unused =>
    refine ⟨"key '", "' is unused (found " ++ (ToString.toString count : String) ++ " " ++
      times count ++ ").", fun key => ?_, by decide, ?_, rfl,
      by rw [List.getLast?_append]; rfl⟩
    · simp only [Finding.message, List.append_assoc]
    · exact .append (.append (.append (.append (by decide) (.toString count)) (by decide))
        (isWording_times count)) (by decide)
  | used =>
    refine ⟨"key '", "' is used " ++ (ToString.toString count : String) ++ " " ++ times count ++ ".",
      fun key => ?_, by decide, ?_, rfl, by rw [List.getLast?_append]; rfl⟩
    · simp only [Finding.message, List.append_assoc]
    · exact .append (.append (.append (.append (by decide) (.toString count)) (by decide))
        (isWording_times count)) (by decide)

/-- A message with a key of which some backslashes are not shown is a message. -/
theorem unslashed_message (f : Finding) :
    Markup.unslashed f.message = ({ f with key := Markup.unslashed f.key } : Finding).message := by
  obtain ⟨kind, key, count⟩ := f
  obtain ⟨before, after, hmessage, hbefore, hafter, hhead, -⟩ := exists_message_eq kind count
  have hends : Markup.EndsTags after := by
    refine ⟨?_, hafter.closeTag⟩
    obtain ⟨rest, rfl⟩ := List.head?_eq_some_iff.1 hhead
    rfl
  have hkey : Markup.unslashed (key ++ after) = Markup.unslashed key ++ after := by
    rw [Markup.unslashed, Markup.dropSlashes_append, ← Markup.unslashed, ← Markup.unslashed]
    · rw [← List.append_nil after, hafter.unslashed_append]
      rfl
    · exact Markup.isSome_tag?_append hends
    · rw [hhead]
      simp
  rw [hmessage, hmessage, List.append_assoc, hbefore.unslashed_append, hkey, List.append_assoc]

theorem getLast?_message (f : Finding) : f.message.getLast? = some (.char '.') := by
  obtain ⟨kind, key, count⟩ := f
  obtain ⟨before, after, hmessage, -, -, -, hlast⟩ := exists_message_eq kind count
  rw [hmessage, List.getLast?_append, hlast]
  rfl

theorem holdsHalf_message (f : Finding) :
    Text.holdsHalf f.message = Text.holdsHalf f.key := by
  obtain ⟨kind, key, count⟩ := f
  obtain ⟨before, after, hmessage, hbefore, hafter, -, -⟩ := exists_message_eq kind count
  rw [hmessage, Text.holdsHalf_append, Text.holdsHalf_append, hbefore.holdsHalf, hafter.holdsHalf,
    Bool.false_or, Bool.or_false]

theorem isStill_message {f : Finding} (h : Console.IsStill f.key) : Console.IsStill f.message := by
  obtain ⟨kind, key, count⟩ := f
  obtain ⟨before, after, hmessage, hbefore, hafter, -, -⟩ := exists_message_eq kind count
  intro c hc
  rw [hmessage, List.mem_append, List.mem_append] at hc
  exact hc.elim (Or.elim · (hbefore.isStill c) (h c)) (hafter.isStill c)

/-- A message tells its key. -/
theorem message_inj {kind : FindingKind} {count : Int} {key key' : Text} :
    (⟨kind, key, count⟩ : Finding).message = (⟨kind, key', count⟩ : Finding).message ↔
      key = key' := by
  obtain ⟨before, after, hmessage, -⟩ := exists_message_eq kind count
  rw [hmessage, hmessage, List.append_left_inj, List.append_right_inj]

end Finding

/-! ## Report lines -/

namespace Console

/-- The line of a finding in a report: its mark and its message. -/
def reportLine (f : Finding) : Text := .char (Finding.mark f.kind) :: .char ' ' :: f.message

/-- A finding is shown as one line. -/
def ShowsLine (f : Finding) (line : Text) : Prop :=
  CodePoint.char '\n' ∉ line ∧
    ∃ out, writeAll (event (.finding f)) = (out, none) ∧ Text.ofString out = line ++ "\n"

theorem event_eq_marked (f : Finding) : ∃ style, Markup.IsStyle style ∧
    event (.finding f) = [marked style [.char (Finding.mark f.kind)] f.message] := by
  obtain ⟨kind, key, count⟩ := f
  cases kind with
  | emptyValue => exact ⟨_, Markup.isStyle_yellow, rfl⟩
  | unused => exact ⟨_, Markup.isStyle_red, rfl⟩
  | used => exact ⟨_, Markup.isStyle_green, rfl⟩

variable {f : Finding} {line : Text}

theorem isStill_reportLine (h : IsStill f.key) : IsStill (reportLine f) := by
  have hmark : IsStill [.char (Finding.mark f.kind), .char ' '] := by
    cases f.kind <;> decide
  intro c hc
  rcases List.mem_cons.1 hc with rfl | hc
  · exact hmark _ List.mem_cons_self
  rcases List.mem_cons.1 hc with rfl | hc
  · exact hmark _ (List.mem_cons_of_mem _ List.mem_cons_self)
  · exact Finding.isStill_message h c hc

theorem isStill_unslashed (h : IsStill f.key) :
    IsStill (reportLine { f with key := Markup.unslashed f.key }) :=
  isStill_reportLine fun c hc => h c ((Markup.dropSlashes_sublist _ _).subset hc)

/-- A finding is shown with one piece: its report line, with its key unslashed. -/
theorem exists_event_eq (h : IsStill f.key) : ∃ piece, event (.finding f) = [piece] ∧
    piece.write = (Text.encode (reportLine { f with key := Markup.unslashed f.key } ++
      "\n")).mapError .unencodableLine := by
  obtain ⟨style, hstyle, hevent⟩ := event_eq_marked f
  have hmark : CodePoint.char (Finding.mark f.kind) ≠ .char '\\' ∧
      CodePoint.char (Finding.mark f.kind) ≠ .char '[' := by
    cases f.kind <;> decide
  have hlast : f.message.getLast? ≠ some (.char '\\') := by
    rw [Finding.getLast?_message]
    decide
  have hshown : Markup.render (Markup.styled style [.char (Finding.mark f.kind)] ++ " " ++
      Markup.escape f.message) = .ok (reportLine { f with key := Markup.unslashed f.key }) := by
    rw [Markup.render_marked hstyle hmark.1 hmark.2 hlast, Finding.unslashed_message]
    rfl
  refine ⟨_, hevent, ?_⟩
  rw [marked, write_line hshown, layOut_of_isStill (isStill_unslashed h)]

theorem holdsHalf_reportLine (f : Finding) :
    Text.holdsHalf (reportLine { f with key := Markup.unslashed f.key } ++ "\n") =
      Text.holdsHalf f.key := by
  rw [Text.holdsHalf_append, reportLine, Text.holdsHalf_cons, Text.holdsHalf_cons,
    Finding.holdsHalf_message, Markup.unslashed, Markup.holdsHalf_dropSlashes]
  simp [CodePoint.isHalf]

/-- A finding is shown as one line at most. -/
theorem ShowsLine.unique {line' : Text} (h : ShowsLine f line) (h' : ShowsLine f line') :
    line = line' := by
  obtain ⟨-, out, hout, hline⟩ := h
  obtain ⟨-, out', hout', hline'⟩ := h'
  cases hout.symm.trans hout'
  exact List.append_cancel_right (hline.symm.trans hline')

theorem showsLine_unslashed (h : IsStill f.key) (hhalf : Text.holdsHalf f.key = false) :
    ShowsLine f (reportLine { f with key := Markup.unslashed f.key }) := by
  obtain ⟨piece, hevent, hwrite⟩ := exists_event_eq h
  obtain ⟨out, hout⟩ := Text.exists_ofString ((holdsHalf_reportLine f).trans hhalf)
  refine ⟨fun hc => absurd (isStill_unslashed h _ hc) (by decide), out, ?_, hout⟩
  rw [← hout, Text.encode_ofString] at hwrite
  have hpiece : piece.write = .ok out := hwrite
  rw [hevent, writeAll, hpiece]
  exact congrArg (·, none) (String.append_empty (s := out))

theorem writeAll_event_of_holdsHalf (h : IsStill f.key) (hhalf : Text.holdsHalf f.key = true) :
    ∃ part, writeAll (event (.finding f)) = ("", some (.unencodableLine part)) := by
  obtain ⟨piece, hevent, hwrite⟩ := exists_event_eq h
  cases hout : Text.encode (reportLine { f with key := Markup.unslashed f.key } ++ "\n") with
  | ok out =>
    have hnone := Text.encode_eq_ok_iff.1 ⟨out, hout⟩
    rw [holdsHalf_reportLine, hhalf] at hnone
    cases hnone
  | error part =>
    rw [hout] at hwrite
    rw [hevent, writeAll, hwrite]
    exact ⟨part, rfl⟩

/-- A finding whose key has nothing that moves the cursor is shown as one line, unless its
    key has a half, which cannot be written. The line has the message as it is, unless the
    key has a backslash in front of a bracket that opens no tag. -/
theorem event_verbatim (f : Finding) (hkey : IsStill f.key) :
    (Text.holdsHalf f.key = false →
      ShowsLine f (reportLine { f with key := Markup.unslashed f.key })) ∧
    (Text.holdsHalf f.key = true →
      ∃ part, writeAll (event (.finding f)) = ("", some (.unencodableLine part))) ∧
    (ShowsLine f (reportLine f) ↔
      Text.holdsHalf f.key = false ∧ ¬Markup.LosesSlash f.key) := by
  refine ⟨showsLine_unslashed hkey, writeAll_event_of_holdsHalf hkey, ?_⟩
  cases hhalf : Text.holdsHalf f.key with
  | true =>
    refine iff_of_false (fun ⟨_, out, hout, _⟩ => ?_) fun h => Bool.noConfusion h.1
    obtain ⟨part, hpart⟩ := writeAll_event_of_holdsHalf hkey hhalf
    cases hout.symm.trans hpart
  | false =>
    rw [← Markup.unslashed_eq_self_iff, eq_self, true_and]
    constructor
    · intro hshows
      have hline := hshows.unique (showsLine_unslashed hkey hhalf)
      exact (Finding.message_inj.1 (List.cons.inj (List.cons.inj hline).2).2).symm
    · intro hself
      have hshows := showsLine_unslashed hkey hhalf
      rwa [hself] at hshows

/-- A key with something like a tag, and with brackets and backslashes that stay. -/
def taggedFinding : Finding := ⟨.used, "[bold]\\[/x] [0]\\", 2⟩

theorem event_verbatim_tagged :
    ShowsLine taggedFinding "✓ key '[bold]\\[/x] [0]\\' is used 2 times." :=
  (event_verbatim taggedFinding (by decide)).1 rfl

/-- A key with a backslash in front of a bracket that opens no tag. -/
def escapedFinding : Finding := ⟨.unused, "\"\\[1]\"", 0⟩

/-- The backslash is not shown. -/
theorem not_verbatim_escaped :
    IsStill escapedFinding.key ∧ Text.holdsHalf escapedFinding.key = false ∧
      ¬ShowsLine escapedFinding (reportLine escapedFinding) := by
  refine ⟨by decide, rfl, fun hshows => ?_⟩
  have hline := hshows.unique (showsLine_unslashed (by decide) rfl)
  exact absurd hline (by decide)

end Console

end KeyAudit
