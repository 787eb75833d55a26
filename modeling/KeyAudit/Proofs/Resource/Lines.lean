import Mathlib
import KeyAudit.Proofs.Text.Octets
import KeyAudit.Resource.File

/-!
# The lines of a file

A line of a text is a piece of it that holds no line feed and cannot be extended: it begins
where the text begins or behind a line feed, and ends in front of a line feed or where the text
ends (`LineAt`). Lines that are not empty are told apart by where they begin, and in this order
they are the lines that a text is cut into (`linesOf_eq_iff`); nothing of the text is lost but
its line feeds (`flatten_linesOf`).

A file is read as a whole. If its octets are UTF-8 then its lines are those of the text that is
written with them. There are no lines and one warning instead if they are not, however late the
first fault is, and if the operating system refuses to open the file. No such failure is passed
on: all that is passed on is that a path cannot be one of a file, which is so before any file
system is asked (`lines_exact`).
-/

namespace KeyAudit

/-- A line of a text, which begins at an offset. -/
structure LineAt (t : Text) (start : Nat) (line : Text) : Prop where
  nonempty : line ≠ []
  unbroken : .char '\n' ∉ line
  bounded : ∃ before after, t = before ++ line ++ after ∧ before.length = start ∧
    (before = [] ∨ before.getLast? = some (.char '\n')) ∧
    (after = [] ∨ after.head? = some (.char '\n'))

/-- All lines of a text, in their order. -/
def AreLines (t : Text) (lines : List Text) : Prop :=
  ∃ placed : List (Nat × Text), placed.map Prod.snd = lines ∧
    placed.Pairwise (fun x y => x.1 < y.1) ∧
    ∀ start line, (start, line) ∈ placed ↔ LineAt t start line

/-! ## Lines on both sides of a line feed -/

/-- The first line feed of a text is in front of any other. -/
theorem first_lineFeed {s t u v : Text} (h : .char '\n' ∉ s)
    (heq : s ++ .char '\n' :: t = u ++ .char '\n' :: v) :
    u = s ∧ v = t ∨ ∃ w, u = s ++ .char '\n' :: w ∧ t = w ++ .char '\n' :: v := by
  rcases List.append_eq_append_iff.1 heq with ⟨mid, rfl, hmid⟩ | ⟨mid, rfl, hmid⟩
  · cases mid with
    | nil => exact .inl ⟨List.append_nil s, (List.cons.inj hmid).2.symm⟩
    | cons c mid =>
      obtain ⟨rfl, ht⟩ := List.cons.inj hmid
      exact .inr ⟨mid, rfl, ht⟩
  · cases mid with
    | nil => exact .inl ⟨(List.append_nil u).symm, (List.cons.inj hmid).2⟩
    | cons c mid =>
      obtain ⟨rfl, -⟩ := List.cons.inj hmid
      exact absurd (List.mem_append_right u List.mem_cons_self) h

/-- A text without a line feed is a line by itself. -/
theorem lineAt_of_not_mem {s : Text} (h : .char '\n' ∉ s) {start : Nat} {line : Text} :
    LineAt s start line ↔ start = 0 ∧ line = s ∧ s ≠ [] := by
  constructor
  · rintro ⟨hne, -, before, after, rfl, rfl, hbefore, hafter⟩
    simp only [List.mem_append, not_or] at h
    have hb : before = [] := hbefore.resolve_right fun hb => h.1.1 (List.mem_of_getLast? hb)
    have ha : after = [] := hafter.resolve_right fun ha => h.2 (List.mem_of_mem_head? ha)
    subst hb ha
    simp [hne]
  · rintro ⟨rfl, rfl, hne⟩
    exact ⟨hne, h, [], [], by simp, rfl, .inl rfl, .inl rfl⟩

/-- The lines on both sides of a line feed. -/
theorem lineAt_append {s t : Text} (h : .char '\n' ∉ s) {start : Nat} {line : Text} :
    LineAt (s ++ .char '\n' :: t) start line ↔
      LineAt s start line ∨ ∃ k, start = s.length + 1 + k ∧ LineAt t k line := by
  constructor
  · rintro ⟨hne, hline, before, after, ht, rfl, hbefore, hafter⟩
    rcases hbefore with rfl | hbefore
    · -- A line at the beginning goes up to the line feed, as it holds none.
      obtain ⟨rest, rfl⟩ : ∃ rest, after = .char '\n' :: rest := by
        rcases hafter with rfl | hafter
        · rw [List.nil_append, List.append_nil] at ht
          exact absurd (ht ▸ List.mem_append_right s List.mem_cons_self) hline
        · obtain ⟨rest, hrest⟩ := List.head?_eq_some_iff.1 hafter
          exact ⟨rest, hrest⟩
      rcases first_lineFeed h ht with ⟨hs, -⟩ | ⟨w, hs, -⟩
      · exact .inl ((lineAt_of_not_mem h).2 ⟨rfl, hs, hs ▸ hne⟩)
      · rw [List.nil_append] at hs
        exact absurd (hs ▸ List.mem_append_right s List.mem_cons_self) hline
    · -- Any other line has a line feed in front, the first of which is that of the text.
      obtain ⟨front, rfl⟩ := List.getLast?_eq_some_iff.1 hbefore
      have ht' : s ++ .char '\n' :: t = front ++ .char '\n' :: (line ++ after) := by
        rw [ht, List.append_assoc, List.append_assoc, List.singleton_append]
      right
      rcases first_lineFeed h ht' with ⟨rfl, rfl⟩ | ⟨w, rfl, rfl⟩
      · exact ⟨0, by simp, hne, hline, [], after, by simp, rfl, .inl rfl, hafter⟩
      · exact ⟨w.length + 1, by simp; omega, hne, hline, w ++ [.char '\n'], after, by simp,
          by simp, .inr List.getLast?_concat, hafter⟩
  · rintro (hs | ⟨k, rfl, hne, hline, before, after, rfl, rfl, hbefore, hafter⟩)
    · obtain ⟨rfl, rfl, hne⟩ := (lineAt_of_not_mem h).1 hs
      exact ⟨hne, h, [], .char '\n' :: t, by simp, rfl, .inl rfl, .inr rfl⟩
    · refine ⟨hne, hline, s ++ .char '\n' :: before, after, by simp, by simp; omega, .inr ?_,
        hafter⟩
      rcases hbefore with rfl | hbefore
      · exact List.getLast?_concat
      · have hne : before ≠ [] := List.ne_nil_of_mem (List.mem_of_getLast? hbefore)
        rw [List.getLast?_append_of_ne_nil _ (List.cons_ne_nil _ _),
          List.getLast?_cons_of_ne_nil hne, hbefore]

/-! ## All lines -/

/-- What goes for a text without a line feed, and for one with a line feed if it goes for what is
    behind, goes for every text. -/
theorem lineFeed_induction {motive : Text → Prop}
    (single : ∀ s, .char '\n' ∉ s → motive s)
    (feed : ∀ s t, .char '\n' ∉ s → motive t → motive (s ++ .char '\n' :: t)) (t : Text) :
    motive t := by
  induction hn : t.length using Nat.strong_induction_on generalizing t with
  | _ n ih =>
    by_cases h : .char '\n' ∈ t
    · obtain ⟨s, rest, rfl, hs⟩ := List.eq_append_cons_of_mem h
      refine feed s rest hs (ih rest.length ?_ rest rfl)
      rw [← hn, List.length_append, List.length_cons]
      omega
    · exact single t h

/-- A text is cut into all its lines. -/
theorem areLines_linesOf (t : Text) : AreLines t (linesOf t) := by
  induction t using lineFeed_induction with
  | single s hs =>
    rw [linesOf_of_not_mem hs]
    refine ⟨([s].filter (· ≠ [])).map fun line => (0, line), by simp, ?_, fun start line => ?_⟩
    · by_cases h : s = [] <;> simp [h]
    · rw [lineAt_of_not_mem hs]
      by_cases h : s = [] <;> simp [h]
  | feed s t hs ih =>
    obtain ⟨placed, hplaced, hsorted, hmem⟩ := ih
    rw [linesOf_append, linesOf_of_not_mem hs]
    refine ⟨(([s].filter (· ≠ [])).map fun line => (0, line)) ++
      placed.map fun x => (s.length + 1 + x.1, x.2), ?_, ?_, fun start line => ?_⟩
    · rw [← hplaced]
      simp [Function.comp_def]
    · refine List.pairwise_append.2 ⟨?_, ?_, ?_⟩
      · by_cases h : s = [] <;> simp [h]
      · exact List.pairwise_map.2 (hsorted.imp fun h => by omega)
      · intro x hx y hy
        obtain ⟨line, -, rfl⟩ := List.mem_map.1 hx
        obtain ⟨z, -, rfl⟩ := List.mem_map.1 hy
        simp only
        omega
    · rw [lineAt_append hs, lineAt_of_not_mem hs, List.mem_append]
      refine or_congr ?_ ⟨?_, ?_⟩
      · by_cases h : s = [] <;> simp [h]
      · intro h
        obtain ⟨⟨k, l⟩, hz, heq⟩ := List.mem_map.1 h
        obtain ⟨rfl, rfl⟩ := Prod.mk.inj heq
        exact ⟨k, rfl, (hmem k l).1 hz⟩
      · rintro ⟨k, rfl, h⟩
        exact List.mem_map.2 ⟨(k, line), (hmem k line).2 h, rfl⟩

/-- There is but one list of all lines. -/
theorem AreLines.unique {t : Text} {lines lines' : List Text} (h : AreLines t lines)
    (h' : AreLines t lines') : lines = lines' := by
  obtain ⟨placed, rfl, hsorted, hmem⟩ := h
  obtain ⟨placed', rfl, hsorted', hmem'⟩ := h'
  have : Std.Antisymm fun x y : Nat × Text => x.1 < y.1 :=
    ⟨fun x y hxy hyx => absurd hxy (Nat.lt_asymm hyx)⟩
  have : Std.Irrefl fun x y : Nat × Text => x.1 < y.1 := ⟨fun x => Nat.lt_irrefl x.1⟩
  rw [hsorted.eq_of_mem_iff hsorted' fun x => (hmem x.1 x.2).trans (hmem' x.1 x.2).symm]

theorem linesOf_eq_iff {t : Text} {lines : List Text} : linesOf t = lines ↔ AreLines t lines :=
  ⟨fun h => h ▸ areLines_linesOf t, (areLines_linesOf t).unique⟩

/-- No line is empty or holds a line feed. -/
theorem AreLines.of_mem {t : Text} {lines : List Text} (h : AreLines t lines) {line : Text}
    (hline : line ∈ lines) : line ≠ [] ∧ .char '\n' ∉ line := by
  obtain ⟨placed, rfl, -, hmem⟩ := h
  obtain ⟨⟨start, l⟩, hplaced, rfl⟩ := List.mem_map.1 hline
  have hat := (hmem start l).1 hplaced
  exact ⟨hat.nonempty, hat.unbroken⟩

/-- The lines hold everything but the line feeds. -/
theorem flatten_linesOf (t : Text) : (linesOf t).flatten = t.filter (· ≠ .char '\n') := by
  have hkeep : ∀ s : Text, .char '\n' ∉ s → s.filter (· ≠ .char '\n') = s := fun s hs =>
    List.filter_eq_self.2 fun c hc => decide_eq_true fun h => hs (h ▸ hc)
  have hsingle : ∀ s : Text, ([s].filter (· ≠ [])).flatten = s := fun s => by
    by_cases h : s = [] <;> simp [h]
  induction t using lineFeed_induction with
  | single s hs => rw [linesOf_of_not_mem hs, hsingle, hkeep s hs]
  | feed s t hs ih =>
    rw [linesOf_append, linesOf_of_not_mem hs, List.flatten_append, hsingle, ih,
      List.filter_append, hkeep s hs, List.filter_cons_of_neg (by simp)]

/-! ## Lines of files -/

namespace FileSystem

/-- The lines of a file whose content is the UTF-8 form of some characters. -/
theorem lines_of_characters {fs : FileSystem} {p : Path} {content : ByteArray} {cs : List Char}
    (h : fs.content p = .ok content)
    (hcs : content.data.toList = cs.flatMap String.utf8EncodeChar) :
    fs.lines p = ⟨[], .ok (linesOf (Text.ofChars cs))⟩ := by
  simp only [lines, text, h, Text.Utf8.decode_eq_ok_iff.2 hcs]

/-- The lines of a file whose content is not the UTF-8 form of anything. -/
theorem lines_of_not_text {fs : FileSystem} {p : Path} {content : ByteArray}
    (h : fs.content p = .ok content)
    (hcs : ∀ cs : List Char, content.data.toList ≠ cs.flatMap String.utf8EncodeChar) :
    ∃ fault, fs.lines p = ⟨[.unreadable p (.undecodable fault)], .ok []⟩ := by
  cases hd : Text.Utf8.decode content.data.toList with
  | ok cs => exact absurd (Text.Utf8.decode_eq_ok_iff.1 hd) (hcs cs)
  | error fault => exact ⟨fault, by simp only [lines, text, h, hd]⟩

/-- The lines of a file that cannot be opened. -/
theorem lines_of_error {fs : FileSystem} {p : Path} {error : AccessError}
    (h : fs.content p = .error error) :
    fs.lines p = if error.isRefusal then ⟨[.unreadable p (.inaccessible error)], .ok []⟩
      else ⟨[], .error error⟩ := by
  simp only [lines, text, h]

/-- Whatever leaves the reading of lines says that no system call takes the path. -/
theorem not_isRefusal_of_outcome_lines {fs : FileSystem} {p : Path} {error : AccessError}
    (h : (fs.lines p).outcome = .error error) :
    error.isRefusal = false ∧ fs.content p = .error error := by
  unfold lines at h
  split at h
  · cases h
  · cases h
  · case h_3 e he =>
      split at h
      · cases h
      · case isFalse hrefusal =>
          obtain rfl := Except.error.inj h
          rw [text] at he
          split at he
          · case h_1 e' hcontent =>
              obtain rfl := TextError.inaccessible.inj (Except.error.inj he)
              exact ⟨Bool.eq_false_of_not_eq_true hrefusal, hcontent⟩
          · split at he
            · cases he
            · cases he

/-- A file has all lines of the text whose UTF-8 form it holds, and leaves no record then. If it
    holds no text, or the operating system refuses to open it, it has no lines and leaves one
    warning. What is passed on is no refusal: there cannot be a file with such a path. -/
theorem lines_exact (fs : FileSystem) (p : Path) :
    (∀ content cs, fs.content p = .ok content →
      content.data.toList = cs.flatMap String.utf8EncodeChar →
      (∀ cs', content.data.toList = cs'.flatMap String.utf8EncodeChar → cs' = cs) ∧
      ∃ ls, fs.lines p = ⟨[], .ok ls⟩ ∧ AreLines (Text.ofChars cs) ls ∧
        (∀ line ∈ ls, line ≠ [] ∧ .char '\n' ∉ line) ∧
        ls.flatten = (Text.ofChars cs).filter (· ≠ .char '\n')) ∧
    (∀ content, fs.content p = .ok content →
      (∀ cs : List Char, content.data.toList ≠ cs.flatMap String.utf8EncodeChar) →
      ∃ record : Record, record.level = .warning ∧ fs.lines p = ⟨[record], .ok []⟩) ∧
    (∀ error, fs.content p = .error error → error.isRefusal = true →
      ∃ record : Record, record.level = .warning ∧ fs.lines p = ⟨[record], .ok []⟩) ∧
    (∀ error, (fs.lines p).outcome = .error error →
      error.isRefusal = false ∧ p.unusable? = some error) := by
  refine ⟨?_, ?_, ?_, ?_⟩
  · intro content cs hcontent hcs
    refine ⟨fun cs' hcs' => ?_, linesOf (Text.ofChars cs), lines_of_characters hcontent hcs,
      areLines_linesOf _, fun line => (areLines_linesOf _).of_mem, flatten_linesOf _⟩
    have hdecode := Text.Utf8.decode_eq_ok_iff.2 hcs
    rw [Text.Utf8.decode_eq_ok_iff.2 hcs'] at hdecode
    exact Except.ok.inj hdecode
  · intro content hcontent hcs
    obtain ⟨fault, hlines⟩ := lines_of_not_text hcontent hcs
    exact ⟨_, rfl, hlines⟩
  · intro error hcontent herror
    exact ⟨.unreadable p (.inaccessible error), rfl, by rw [lines_of_error hcontent, if_pos herror]⟩
  · intro error herror
    obtain ⟨hrefusal, hcontent⟩ := not_isRefusal_of_outcome_lines herror
    refine ⟨hrefusal, ?_⟩
    cases hp : p.unusable? with
    | none =>
      rw [isRefusal_of_content hp hcontent] at hrefusal
      cases hrefusal
    | some unusable =>
      simp only [content, hp] at hcontent
      rw [Except.error.inj hcontent]

/-- A file with a byte order mark and carriage returns, and one whose last octets are those of a
    surrogate. -/
def marked : FileSystem where
  nodes := [(["s"], .file "\uFEFFa\r\n\n\rb".toUTF8),
    (["t"], .file ⟨#[0x61, 0x0A, 0xED, 0xA0, 0x80]⟩)]
  denied := []
  workingDirectory := []
  distinct := by decide
  named := by decide

/-- One of these files is read, the other one is not, and a third one is missing. -/
theorem lines_exact_marked :
    (∃ ls, marked.lines (Path.ofText "s") = ⟨[], .ok ls⟩ ∧ AreLines "\uFEFFa\r\n\n\rb" ls ∧
      ls.flatten = "\uFEFFa\r\rb") ∧
    (∃ record : Record, record.level = .warning ∧
      marked.lines (Path.ofText "t") = ⟨[record], .ok []⟩) ∧
    ∃ record : Record, record.level = .warning ∧
      marked.lines (Path.ofText "u") = ⟨[record], .ok []⟩ := by
  have hs : marked.content (Path.ofText "s") = .ok "\uFEFFa\r\n\n\rb".toUTF8 :=
    content_eq_ok_iff.2 ⟨by cbv, ["s"], by cbv, by decide, rfl⟩
  have ht : marked.content (Path.ofText "t") = .ok ⟨#[0x61, 0x0A, 0xED, 0xA0, 0x80]⟩ :=
    content_eq_ok_iff.2 ⟨by cbv, ["t"], by cbv, by decide, rfl⟩
  have hu : marked.content (Path.ofText "u") = .error (.refused .noEntry "u") := by cbv
  refine ⟨?_, ?_, ?_⟩
  · obtain ⟨-, ls, hls, hall, -, hflatten⟩ := (lines_exact marked _).1 _ _ hs
      (Text.Utf8.decode_eq_ok_iff.1 (Text.Utf8.decode_toUTF8 _))
    exact ⟨ls, hls, hall, hflatten.trans (by decide)⟩
  · refine (lines_exact marked _).2.1 _ ht fun cs hcs => ?_
    have hdecode := Text.Utf8.decode_eq_ok_iff.2 hcs
    cases hdecode
  · exact (lines_exact marked _).2.2.1 _ hu rfl

end FileSystem

end KeyAudit
