import Mathlib
import KeyAudit.Proofs.Text.Trim
import KeyAudit.Resource.Entry

/-!
# The form of an entry

A line is an entry if it has the form `A=B` when its blank ends are gone: a left side that
begins with a quote, one or more equals signs, and a right side that ends with a semicolon.
Neither side holds an equals sign itself, and the left side has a quote at its end as well,
which blank space may follow (`Form`).

Entries are looked for in another way. The line is cut at all its equals signs, and it is
counted how many pieces there are that are not empty. For a text whose ends are no equals
signs these are two exactly if it is such a pair of sides (`parts_eq_pair_iff`), so the form
is what is found, nothing else is, and it is found in one way only
(`entry_iff_form`).
-/

namespace KeyAudit.Entry

/-- The form that a line has around its equals signs, of which there are `count`. -/
structure Form (line left : Text) (count : Nat) (right : Text) : Prop where
  sides : Text.trim line = left ++ List.replicate count (.char '=') ++ right
  separated : 1 ≤ count
  leftNoEquals : .char '=' ∉ left
  rightNoEquals : .char '=' ∉ right
  opens : left.head? = some (.char '"')
  closes : (Text.trim left).getLast? = some (.char '"')
  ends : right.getLast? = some (.char ';')

/-! ## Cutting at equals signs -/

theorem parts_equals_cons (s : Text) : parts (.char '=' :: s) = parts s := by
  rw [parts, parts, Text.splitOn_eq, Text.splitOn_eq, List.splitOn_cons_eq_if_modifyHead]
  simp

theorem parts_replicate_append (count : Nat) (s : Text) :
    parts (List.replicate count (.char '=') ++ s) = parts s := by
  induction count with
  | zero => rfl
  | succ count ih => rw [List.replicate_succ, List.cons_append, parts_equals_cons, ih]

theorem parts_of_not_mem {s : Text} (h : .char '=' ∉ s) (hs : s ≠ []) : parts s = [s] := by
  rw [parts, Text.splitOn_eq, List.splitOn_eq_singleton h]
  simp [hs]

theorem parts_append_equals {left : Text} (h : .char '=' ∉ left) (hleft : left ≠ []) (s : Text) :
    parts (left ++ .char '=' :: s) = left :: parts s := by
  rw [parts, parts, Text.splitOn_eq, Text.splitOn_eq,
    List.splitOn_append_cons_self_of_not_mem h]
  simp [hleft]

theorem not_mem_of_mem_parts {s part : Text} (h : part ∈ parts s) : .char '=' ∉ part :=
  Text.not_mem_of_mem_splitOn (List.mem_filter.1 h).1

/-- What falls into no parts holds equals signs only. -/
theorem eq_equals_of_parts_eq_nil {s : Text} (h : parts s = []) {c : CodePoint} (hc : c ∈ s) :
    c = .char '=' := by
  rw [← Text.join_splitOn '=' s] at hc
  rcases Text.mem_join hc with hc | ⟨piece, hpiece, hc⟩
  · exact List.mem_singleton.1 hc
  · have hpart : piece ∈ parts s :=
      List.mem_filter.2 ⟨hpiece, by simpa using List.ne_nil_of_mem hc⟩
    rw [h] at hpart
    exact absurd hpart List.not_mem_nil

/-- A text with one part, and with no equals sign at its end, is this part behind some equals
    signs. -/
theorem exists_replicate_of_parts {s right : Text} {last : CodePoint} (h : parts s = [right])
    (hlast : s.getLast? = some last) (hne : last ≠ .char '=') :
    ∃ count, s = List.replicate count (.char '=') ++ right := by
  induction s with
  | nil => cases hlast
  | cons c s ih =>
    by_cases hc : c = .char '='
    · subst hc
      rw [parts_equals_cons] at h
      have hs : s ≠ [] := by rintro rfl; cases h
      rw [List.getLast?_cons_of_ne_nil hs] at hlast
      obtain ⟨count, rfl⟩ := ih h hlast
      exact ⟨count + 1, rfl⟩
    · by_cases hmem : .char '=' ∈ c :: s
      · -- Behind a further equals sign there would have to be a part, on account of the end.
        exfalso
        obtain ⟨part, rest, hs, hpart⟩ := List.eq_append_cons_of_mem hmem
        have hpartne : part ≠ [] := by
          rintro rfl
          exact hc (List.cons.inj hs).1
        rw [hs, parts_append_equals hpart hpartne] at h
        have hmemlast : last ∈ .char '=' :: rest := by
          rw [hs, List.getLast?_append_of_ne_nil _ (List.cons_ne_nil _ _)] at hlast
          exact List.mem_of_getLast? hlast
        rcases List.mem_cons.1 hmemlast with hl | hl
        · exact hne hl
        · exact hne (eq_equals_of_parts_eq_nil (List.cons.inj h).2 hl)
      · rw [parts_of_not_mem hmem (List.cons_ne_nil _ _)] at h
        exact ⟨0, by rw [List.replicate_zero, List.nil_append]; exact (List.cons.inj h).1⟩

/-- The parts of a text are two exactly if equals signs stand between them, and none at the
    ends of the text. -/
theorem parts_eq_pair_iff {s left right : Text} {first last : CodePoint}
    (hfirst : s.head? = some first) (hlast : s.getLast? = some last)
    (hf : first ≠ .char '=') (hl : last ≠ .char '=') :
    parts s = [left, right] ↔
      (∃ count, 1 ≤ count ∧ s = left ++ List.replicate count (.char '=') ++ right) ∧
        .char '=' ∉ left ∧ .char '=' ∉ right := by
  constructor
  · intro h
    have hleft : .char '=' ∉ left := not_mem_of_mem_parts (h ▸ List.mem_cons_self)
    have hright : .char '=' ∉ right :=
      not_mem_of_mem_parts (h ▸ List.mem_cons_of_mem _ List.mem_cons_self)
    refine ⟨?_, hleft, hright⟩
    have hmem : .char '=' ∈ s := by
      by_contra hmem
      have hs : s ≠ [] := by rintro rfl; cases hfirst
      rw [parts_of_not_mem hmem hs] at h
      cases h
    obtain ⟨part, rest, rfl, hpart⟩ := List.eq_append_cons_of_mem hmem
    have hpartne : part ≠ [] := by
      rintro rfl
      exact hf (Option.some.inj hfirst).symm
    rw [parts_append_equals hpart hpartne] at h
    obtain ⟨rfl, hrest⟩ := List.cons.inj h
    have hrestne : rest ≠ [] := by rintro rfl; cases hrest
    rw [List.getLast?_append_of_ne_nil _ (List.cons_ne_nil _ _),
      List.getLast?_cons_of_ne_nil hrestne] at hlast
    obtain ⟨count, rfl⟩ := exists_replicate_of_parts hrest hlast hl
    exact ⟨count + 1, Nat.le_add_left 1 count, by simp [List.replicate_succ]⟩
  · rintro ⟨⟨count, hcount, rfl⟩, hleft, hright⟩
    obtain ⟨count, rfl⟩ := Nat.exists_eq_add_of_le' hcount
    -- Neither side is empty, or an equals sign would be at an end.
    have hleftne : left ≠ [] := by
      rintro rfl
      exact hf (Option.some.inj hfirst).symm
    have hrightne : right ≠ [] := by
      rintro rfl
      rw [List.append_nil, List.replicate_succ', ← List.append_assoc,
        List.getLast?_concat] at hlast
      exact hl (Option.some.inj hlast).symm
    rw [List.replicate_succ, List.append_assoc, List.cons_append,
      parts_append_equals hleft hleftne, parts_replicate_append, parts_of_not_mem hright hrightne]

/-! ## Entries and their form -/

/-- A line of this form passes for an entry, and its parts are the two sides. -/
theorem Form.isKeyValue {line left right : Text} {count : Nat} (h : Form line left count right) :
    isKeyValue (Text.trim line) = true ∧ parts (Text.trim line) = [left, right] := by
  have hfirst : (Text.trim line).head? = some (.char '"') := by
    rw [h.sides, List.append_assoc, List.head?_append_of_ne_nil]
    · exact h.opens
    · exact List.ne_nil_of_mem (List.mem_of_mem_head? h.opens)
  have hlast : (Text.trim line).getLast? = some (.char ';') := by
    rw [h.sides, List.getLast?_append_of_ne_nil]
    · exact h.ends
    · exact List.ne_nil_of_mem (List.mem_of_getLast? h.ends)
  have hparts : parts (Text.trim line) = [left, right] :=
    (parts_eq_pair_iff hfirst hlast (by decide) (by decide)).2
      ⟨⟨count, h.separated, h.sides⟩, h.leftNoEquals, h.rightNoEquals⟩
  exact ⟨isKeyValue_iff.2 ⟨hfirst, hlast, by rw [hparts]; rfl⟩, hparts⟩

/-- What passes for an entry has two parts, the second of which ends with the semicolon; only
    the quote at the end of the key may be missing. -/
theorem exists_sides_of_isKeyValue {s : Text} (h : isKeyValue s = true) :
    ∃ left right, parts s = [left, right] ∧
      (∃ count, 1 ≤ count ∧ s = left ++ List.replicate count (.char '=') ++ right) ∧
      left.head? = some (.char '"') ∧ right.getLast? = some (.char ';') := by
  obtain ⟨hfirst, hlast, hlength⟩ := isKeyValue_iff.1 h
  obtain ⟨left, right, hparts⟩ := List.length_eq_two.1 hlength
  obtain ⟨⟨count, hcount, rfl⟩, hleft, hright⟩ :=
    (parts_eq_pair_iff hfirst hlast (by decide) (by decide)).1 hparts
  have hne : ∀ part ∈ [left, right], part ≠ [] := fun part hpart => by
    rw [← hparts] at hpart
    simpa using (List.mem_filter.1 hpart).2
  refine ⟨left, right, hparts, ⟨count, hcount, rfl⟩, ?_, ?_⟩
  · rwa [List.append_assoc, List.head?_append_of_ne_nil _ (hne left (by simp))] at hfirst
  · rwa [List.getLast?_append_of_ne_nil _ (hne right (by simp))] at hlast

/-- The semicolon at the end of the right side keeps what stands in front of it from being
    trimmed at its end. -/
theorem trim_of_ends {right : Text} (h : right.getLast? = some (.char ';')) :
    (Text.trim right).getLast? = some (.char ';') ∧
      Text.trim (Text.trim right).dropLast = Text.trim right.dropLast := by
  obtain ⟨value, rfl⟩ := List.getLast?_eq_some_iff.1 h
  have htrim : Text.trim (value ++ [.char ';']) =
      Text.trimStartBy Text.isBlank value ++ [.char ';'] := Text.trimBy_concat value (by decide)
  rw [htrim, List.getLast?_concat, List.dropLast_concat, List.dropLast_concat]
  exact ⟨rfl, Text.trimBy_trimStartBy value⟩

theorem isEmptyValue_iff_of_ends {right : Text} (h : right.getLast? = some (.char ';')) :
    isEmptyValue right = true ↔ Text.trim right.dropLast = [.char '"', .char '"'] := by
  obtain ⟨hlast, htrim⟩ := trim_of_ends h
  rw [isEmptyValue_iff, htrim]
  exact and_iff_right hlast

/-- The sides of a line are found by cutting it, and each stands in its place. -/
theorem Form.unique {line left right left' right' : Text} {count count' : Nat}
    (h : Form line left count right) (h' : Form line left' count' right') :
    left = left' ∧ count = count' ∧ right = right' := by
  have hparts : [left, right] = [left', right'] := h.isKeyValue.2.symm.trans h'.isKeyValue.2
  obtain ⟨hleft, hparts⟩ := List.cons.inj hparts
  have hright : right = right' := (List.cons.inj hparts).1
  have hlength := congrArg List.length (h.sides.symm.trans h'.sides)
  rw [hleft, hright] at hlength
  simp only [List.length_append, List.length_replicate] at hlength
  exact ⟨hleft, by omega, hright⟩

/-- The entry that a line of this form holds. -/
theorem Form.ofLine? {line left right : Text} {count : Nat} (h : Form line left count right)
    (detect : Bool) :
    ofLine? detect line = some ⟨Text.trim left, detect && isEmptyValue right⟩ := by
  obtain ⟨hkeyValue, hparts⟩ := h.isKeyValue
  have hquoted : isQuoted (Text.trim left) = true :=
    isQuoted_iff.2 ⟨Text.head?_trimBy h.opens (by decide), h.closes⟩
  simp only [Entry.ofLine?, hkeyValue, hparts, hquoted, if_true]

/-- A line that holds an entry has this form. -/
theorem exists_form_of_ofLine? {detect : Bool} {line : Text} {e : Entry}
    (h : ofLine? detect line = some e) : ∃ left count right, Form line left count right := by
  simp only [ofLine?] at h
  split at h
  · case isTrue hkeyValue =>
      obtain ⟨left, right, hparts, ⟨count, hcount, hsides⟩, hopens, hends⟩ :=
        exists_sides_of_isKeyValue hkeyValue
      have hleft : left ∈ parts (Text.trim line) := hparts ▸ List.mem_cons_self
      have hright : right ∈ parts (Text.trim line) := by rw [hparts]; simp
      rw [hparts] at h
      dsimp only at h
      split at h
      · case isTrue hquoted =>
          exact ⟨left, count, right, hsides, hcount, not_mem_of_mem_parts hleft,
            not_mem_of_mem_parts hright, hopens, (isQuoted_iff.1 hquoted).2, hends⟩
      · cases h
  · cases h

/-- The entries are the lines of the form, whether or not empty values are to be told apart, and
    no line has this form in two ways. The key is the left side without its blank ends; the value
    is empty if there are but two quotes on the right side, up to its semicolon. What passes for
    an entry at first has two parts at its equals signs, and the second one ends with a
    semicolon when it is trimmed. -/
theorem entry_iff_form (line : Text) :
    (∀ detect, (∃ e, ofLine? detect line = some e) ↔
      ∃ left count right, Form line left count right) ∧
    (∀ left count right left' count' right', Form line left count right →
      Form line left' count' right' → left = left' ∧ count = count' ∧ right = right') ∧
    (∀ detect e left count right, ofLine? detect line = some e → Form line left count right →
      e.key = Text.trim left ∧
        (e.hasEmptyValue = true ↔
          detect = true ∧ Text.trim right.dropLast = [.char '"', .char '"'])) ∧
    (isKeyValue (Text.trim line) = true →
      ∃ left right, parts (Text.trim line) = [left, right] ∧
        (Text.trim right).getLast? = some (.char ';')) := by
  refine ⟨fun detect => ⟨?_, ?_⟩, ?_, ?_, ?_⟩
  · rintro ⟨e, he⟩
    exact exists_form_of_ofLine? he
  · rintro ⟨left, count, right, h⟩
    exact ⟨_, h.ofLine? detect⟩
  · intro left count right left' count' right' h h'
    exact h.unique h'
  · intro detect e left count right he h
    obtain rfl := Option.some.inj (he.symm.trans (h.ofLine? detect))
    exact ⟨rfl, by rw [Bool.and_eq_true, isEmptyValue_iff_of_ends h.ends]⟩
  · intro h
    obtain ⟨left, right, hparts, -, -, hends⟩ := exists_sides_of_isKeyValue h
    exact ⟨left, right, hparts, (trim_of_ends hends).1⟩

/-- Blank space of any kind and a doubled equals sign between the sides. -/
theorem entry_iff_form_doubled :
    ∃ e, ofLine? true " \u00a0\"a;b\" \u2003== \t\"\" ;\r" = some e ∧
      e.key = "\"a;b\"" ∧ e.hasEmptyValue = true := by
  have hform : Form " \u00a0\"a;b\" \u2003== \t\"\" ;\r" "\"a;b\" \u2003" 2 " \t\"\" ;" := by
    constructor <;> decide
  obtain ⟨hentry, -, hread, -⟩ :=
    entry_iff_form " \u00a0\"a;b\" \u2003== \t\"\" ;\r"
  obtain ⟨e, he⟩ := (hentry true).2 ⟨_, _, _, hform⟩
  obtain ⟨hkey, hempty⟩ := hread true e _ _ _ he hform
  exact ⟨e, he, hkey.trans (by decide), hempty.2 ⟨rfl, by decide⟩⟩

end KeyAudit.Entry
