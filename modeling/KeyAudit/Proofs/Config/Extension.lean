import Mathlib
import KeyAudit.Config.Extension
import KeyAudit.Proofs.Text.Lower
import KeyAudit.Proofs.Text.Trim

/-!
# Extensions that are kept

What is kept of the extensions in a text is in lower case, has no blank at its end and is
neither empty nor cut at a comma (`IsKept`). It need not be in a normal form, though: a blank
or a second dot may be left behind the dot that is dropped. Such an extension gets shorter when
it is read again (`length_normalize_lt`).

Extensions are kept as a set. Of a set that has been kept the same set is read again exactly if
all of its extensions are in normal form (`ofTexts_eq_self_iff`): otherwise the longest one that
is not would have to come from one that is longer still.
-/

namespace KeyAudit

/-! ## The order of texts -/

instance CodePoint.instIrrefl : Std.Irrefl (α := CodePoint) (· < ·) :=
  ⟨fun c => Nat.lt_irrefl c.toNat⟩

instance CodePoint.instAsymm : Std.Asymm (α := CodePoint) (· < ·) :=
  ⟨fun _ _ => Nat.lt_asymm⟩

instance CodePoint.instTrichotomous : Std.Trichotomous (α := CodePoint) (· < ·) :=
  ⟨fun _ _ h h' => CodePoint.toNat_inj (Nat.le_antisymm (Nat.le_of_not_lt h') (Nat.le_of_not_lt h))⟩

instance CodePoint.instTrans : Trans (α := CodePoint) (· < ·) (· < ·) (· < ·) :=
  ⟨fun h h' => Nat.lt_trans h h'⟩

namespace Extension

variable {s t e : Text} {texts es : List Text}

/-- What comes neither before another text nor after it is this text. -/
theorem lt_of_not_lt (h : ¬s < t) (hne : s ≠ t) : t < s :=
  (List.le_iff_lt_or_eq.1 (List.not_lt.1 h)).resolve_right fun heq => hne heq.symm

/-! ## Sets of texts -/

theorem mem_insert : e ∈ insert s texts ↔ e = s ∨ e ∈ texts := by
  induction texts with
  | nil => simp [insert]
  | cons t texts ih =>
    rw [insert]
    split
    · rw [List.mem_cons]
    · split
      · case isTrue hst => simp [hst]
      · rw [List.mem_cons, ih, List.mem_cons]
        tauto

theorem mem_setOf : e ∈ setOf texts ↔ e ∈ texts := by
  unfold setOf
  induction texts with
  | nil => exact Iff.rfl
  | cons s texts ih => rw [List.foldr_cons, mem_insert, ih, List.mem_cons]

/-- Inserting keeps a list increasing. -/
theorem pairwise_insert (h : texts.Pairwise (· < ·)) : (insert s texts).Pairwise (· < ·) := by
  induction texts with
  | nil => exact List.pairwise_singleton _ s
  | cons t texts ih =>
    obtain ⟨ht, htexts⟩ := List.pairwise_cons.1 h
    rw [insert]
    split
    · case isTrue hst =>
        refine List.pairwise_cons.2 ⟨fun u hu => ?_, h⟩
        rcases List.mem_cons.1 hu with rfl | hu
        · exact hst
        · exact List.lt_trans hst (ht u hu)
    · split
      · exact h
      · case isFalse hst hne =>
          refine List.pairwise_cons.2 ⟨fun u hu => ?_, ih htexts⟩
          rcases mem_insert.1 hu with rfl | hu
          · exact lt_of_not_lt hst hne
          · exact ht u hu

theorem pairwise_setOf (texts : List Text) : (setOf texts).Pairwise (· < ·) := by
  unfold setOf
  induction texts with
  | nil => exact List.Pairwise.nil
  | cons s texts ih => exact pairwise_insert ih

/-- An increasing list is the set of its texts. -/
theorem setOf_of_pairwise (h : texts.Pairwise (· < ·)) : setOf texts = texts := by
  unfold setOf
  induction texts with
  | nil => rfl
  | cons s texts ih =>
    obtain ⟨hs, htexts⟩ := List.pairwise_cons.1 h
    rw [List.foldr_cons, ih htexts]
    cases texts with
    | nil => rfl
    | cons t texts => rw [insert, if_pos (hs t List.mem_cons_self)]

/-! ## Extensions one by one -/

/-- A text without the dot in front, if there is one. -/
def undotted : Text → Text
  | .char '.' :: rest => rest
  | s => s

theorem normalize_eq (s : Text) : normalize s = undotted (Text.lower (Text.trim s)) := rfl

theorem undotted_suffix (s : Text) : undotted s <:+ s := by
  unfold undotted
  split
  · exact List.suffix_cons _ _
  · exact List.suffix_refl _

theorem undotted_eq_self_iff : undotted s = s ↔ s.head? ≠ some (.char '.') := by
  constructor
  · intro h hdot
    obtain ⟨rest, rfl⟩ := List.head?_eq_some_iff.1 hdot
    exact absurd (congrArg List.length h) (by simp [undotted])
  · intro h
    unfold undotted
    split
    · exact absurd rfl h
    · rfl

/-- What is true of all extensions that are kept. -/
structure IsKept (e : Text) : Prop where
  nonempty : e ≠ []
  uncut : .char ',' ∉ e
  lower : ∀ c ∈ e, Text.IsLower c
  ends : ∀ c, e.getLast? = some c → Text.isBlank c = false

/-- The normal form that an extension should have: no dot and no blank in front. -/
def IsNormal (e : Text) : Prop :=
  ∀ c, e.head? = some c → c ≠ .char '.' ∧ Text.isBlank c = false

theorem isKept_of_mem_ofText (h : e ∈ ofText s) : IsKept e := by
  obtain ⟨hmap, hne⟩ := List.mem_filter.1 h
  obtain ⟨piece, hpiece, rfl⟩ := List.mem_map.1 hmap
  rw [normalize_eq] at hne ⊢
  have hsuffix := undotted_suffix (Text.lower (Text.trim piece))
  refine ⟨by simpa using hne, fun hcomma => ?_, fun c hc => ?_, fun c hc => ?_⟩
  · rcases (Text.isLower_of_mem_lower (hsuffix.subset hcomma)).2 with hmem | hsolid
    · exact Text.not_mem_of_mem_splitOn hpiece ((Text.trimBy_infix _ piece).subset hmem)
    · exact hsolid.1.2 rfl
  · exact (Text.isLower_of_mem_lower (hsuffix.subset hc)).1
  · -- The end is that of the trimmed text.
    obtain ⟨front, hfront⟩ := hsuffix
    have htight : Text.IsTight (Text.lower (Text.trim piece)) :=
      Text.isTight_lower_iff.2 (Text.isTight_trim piece)
    refine Bool.eq_false_of_not_eq_true fun hblank => (htight c hblank).2 ?_
    rw [← hfront, List.getLast?_append_of_ne_nil _ (by simpa using hne)]
    exact hc

/-- Of an extension that is kept, only the start may go when it is read again. -/
theorem normalize_of_isKept (h : IsKept e) :
    normalize e = undotted (Text.trimStartBy Text.isBlank e) := by
  have htrim : Text.trim e = Text.trimStartBy Text.isBlank e := Text.trimBy_of_getLast? h.ends
  have hlower : Text.lower (Text.trimStartBy Text.isBlank e) = Text.trimStartBy Text.isBlank e :=
    Text.lower_of_isLower fun c hc => h.lower c ((Text.trimStartBy_suffix e).subset hc)
  rw [normalize_eq, htrim, hlower]

theorem normalize_suffix (h : IsKept e) : normalize e <:+ e := by
  rw [normalize_of_isKept h]
  exact (undotted_suffix _).trans (Text.trimStartBy_suffix e)

theorem normalize_eq_self_iff (h : IsKept e) : normalize e = e ↔ IsNormal e := by
  rw [normalize_of_isKept h]
  constructor
  · intro heq c hc
    have hstart : Text.trimStartBy Text.isBlank e = e := by
      refine (Text.trimStartBy_suffix e).eq_of_length_le ?_
      rw [← congrArg List.length heq]
      exact (undotted_suffix _).length_le
    rw [hstart] at heq
    refine ⟨?_, Text.isBlank_of_head?_trimStartBy (s := e) (hstart.symm ▸ hc)⟩
    rintro rfl
    exact undotted_eq_self_iff.1 heq hc
  · intro hnormal
    obtain ⟨c, rest, rfl⟩ := List.exists_cons_of_ne_nil h.nonempty
    obtain ⟨hdot, hblank⟩ := hnormal c rfl
    have hstart : Text.trimStartBy Text.isBlank (c :: rest) = c :: rest :=
      List.dropWhile_cons_of_neg (by simp [hblank])
    rw [hstart, undotted_eq_self_iff]
    exact fun hc => hdot (Option.some.inj hc)

/-- An extension that is not in normal form gets shorter when it is read again. -/
theorem length_normalize_lt (h : IsKept e) (hnormal : ¬IsNormal e) :
    (normalize e).length < e.length := by
  refine Nat.lt_of_le_of_ne (normalize_suffix h).length_le fun hlength => hnormal ?_
  exact (normalize_eq_self_iff h).1 ((normalize_suffix h).eq_of_length hlength)

theorem ofText_of_isKept (h : IsKept e) : ofText e = [normalize e].filter (· ≠ []) := by
  rw [ofText, Text.splitOn_eq, List.splitOn_eq_singleton h.uncut]
  rfl

/-! ## Sets of extensions that are kept -/

/-- The parts between the commas of some texts. -/
def parts (texts : List Text) : List Text := texts.flatMap (Text.splitOn ',')

/-- The set of the extensions in some texts is that of the normal forms of their parts. -/
theorem mem_ofTexts : e ∈ ofTexts texts ↔ e ≠ [] ∧ ∃ part ∈ parts texts, normalize part = e := by
  rw [ofTexts, mem_setOf, parts]
  simp only [ofText, List.mem_flatMap, List.mem_filter, List.mem_map, decide_eq_true_eq]
  constructor
  · rintro ⟨s, hs, ⟨part, hpart, heq⟩, hne⟩
    exact ⟨hne, part, ⟨s, hs, hpart⟩, heq⟩
  · rintro ⟨hne, part, ⟨s, hs, hpart⟩, heq⟩
    exact ⟨s, hs, ⟨part, hpart, heq⟩, hne⟩

theorem isKept_of_mem_ofTexts (h : e ∈ ofTexts texts) : IsKept e := by
  obtain ⟨s, -, hs⟩ := List.mem_flatMap.1 (mem_setOf.1 h)
  exact isKept_of_mem_ofText hs

theorem ofTexts_eq_self_iff (hes : es.Pairwise (· < ·)) (hkept : ∀ e ∈ es, IsKept e) :
    ofTexts es = es ↔ ∀ e ∈ es, IsNormal e := by
  constructor
  · intro heq
    by_contra hex
    push Not at hex
    obtain ⟨e₀, he₀, hn₀⟩ := hex
    classical
    -- The longest extension that is not in normal form.
    obtain ⟨e, he, hmax⟩ := (es.toFinset.filter fun e => ¬IsNormal e).exists_max_image List.length
      ⟨e₀, by simp [he₀, hn₀]⟩
    simp only [Finset.mem_filter, List.mem_toFinset] at he hmax
    -- It is what is read of another one.
    obtain ⟨d, hd, hde⟩ : ∃ d ∈ es, normalize d = e := by
      have hmem : e ∈ ofTexts es := heq.symm ▸ he.1
      obtain ⟨d, hd, hmem⟩ := List.mem_flatMap.1 (mem_setOf.1 hmem)
      rw [ofText_of_isKept (hkept d hd)] at hmem
      exact ⟨d, hd, (List.mem_singleton.1 (List.mem_filter.1 hmem).1).symm⟩
    by_cases hnormal : IsNormal d
    · rw [(normalize_eq_self_iff (hkept d hd)).2 hnormal] at hde
      exact he.2 (hde ▸ hnormal)
    · have hlt := length_normalize_lt (hkept d hd) hnormal
      rw [hde] at hlt
      exact absurd (hmax d ⟨hd, hnormal⟩) (Nat.not_le.2 hlt)
  · intro hnormal
    have hsame : es.flatMap ofText = es := by
      have hsingle : ∀ e ∈ es, ofText e = [e] := fun e he => by
        rw [ofText_of_isKept (hkept e he), (normalize_eq_self_iff (hkept e he)).2 (hnormal e he)]
        simp [(hkept e he).nonempty]
      rw [List.flatMap_congr hsingle, List.flatMap_singleton']
    rw [ofTexts, hsame, setOf_of_pairwise hes]

end Extension

end KeyAudit
