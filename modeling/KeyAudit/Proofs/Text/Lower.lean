import Mathlib
import KeyAudit.Proofs.Text.Trim
import KeyAudit.Text.Case

/-!
# What is in lower case

A code point is in lower case if lowering leaves it as it is wherever it stands (`IsLower`).
The lower case of a text consists of such code points only (`isLower_of_mem_lower`), and a
text that does so stays as it is (`lower_of_isLower`): lowering twice is lowering once.

For this no letter may be mapped to one that is mapped on. The letters are kept in ranges, and
ranges are compared as such: the lower case of one range misses another range, or falls into
its gaps (`CaseRange.isApart`). Lowering makes no blank, no comma and no dot either, so a text
that is cut at commas and trimmed in front of it need not be cut again, and one without blank
ends has none in lower case (`isTight_lower_iff`). A dot in front of a text does not matter for
its lower case, as it is skipped in the search for a letter (`lower_cons_dot`).
-/

namespace KeyAudit.Text

namespace Tables.CaseRange

/-- The lower case of the first letter of a range. -/
def low (r : CaseRange) : Nat := (r.first + r.distance).toNat

/-- The lower case of the last letter of a range. -/
def high (r : CaseRange) : Nat := (r.last + r.distance).toNat

/-- The lower case letters of a range are no letters of another one. -/
def isApart (r s : CaseRange) : Bool :=
  r.high.blt s.first || s.last.blt r.low ||
    ((r.low.beq r.high || (r.step % s.step).beq 0) && !(r.low % s.step).beq (s.first % s.step))

/-- The lower case letters of a range are characters, and neither blanks nor commas nor the
    one letter that is mapped to two. -/
def isPlain (r : CaseRange) : Bool :=
  decide (0 ≤ r.first + r.distance) &&
    (List.range' r.low (r.high + 1 - r.low)).all fun n =>
      let c : CodePoint := .char (Char.ofNat n)
      c.toNat.beq n && !isBlank c && c != ',' && c != 'İ' && c != 'Σ'

/-- The letters of a range lie between two runs of blanks, and their lower case behind the dot. -/
def isAmongLetters (r : CaseRange) : Bool :=
  Nat.blt 0x2E r.low &&
    ((Nat.blt 0x20 r.first && r.last.blt 0x85) || (Nat.blt 0xA0 r.first && r.last.blt 0x1680) ||
      (Nat.blt 0x1680 r.first && r.last.blt 0x2000) ||
      (Nat.blt 0x205F r.first && r.last.blt 0x3000) || Nat.blt 0x3000 r.first)

theorem isApart_of_mem : upperCase.all (fun r => upperCase.all r.isApart) = true := by
  decide +kernel

theorem isPlain_of_mem : upperCase.all isPlain = true := by
  decide +kernel

theorem isAmongLetters_of_mem : upperCase.all isAmongLetters = true := by
  decide +kernel

theorem contains_iff {r : CaseRange} {n : Nat} :
    r.contains n = true ↔ r.first ≤ n ∧ n ≤ r.last ∧ (n - r.first) % r.step = 0 := by
  simp [contains, and_assoc]

/-- The lower case of a letter of a range. -/
theorem exists_low_add {r : CaseRange} {n : Nat} (hr : r ∈ upperCase) (h : r.contains n = true) :
    ∃ k, (n + r.distance).toNat = r.low + k ∧ r.low + k ≤ r.high ∧ k % r.step = 0 := by
  have hplain := List.all_eq_true.1 isPlain_of_mem r hr
  simp only [isPlain, Bool.and_eq_true, decide_eq_true_eq] at hplain
  have hfirst : 0 ≤ r.first + r.distance := hplain.1
  obtain ⟨hlow, hhigh, hstep⟩ := contains_iff.1 h
  refine ⟨n - r.first, ?_, ?_, hstep⟩
  · unfold low
    omega
  · unfold low high
    omega

/-- What is the lower case of a letter is no upper case letter. -/
theorem not_contains_low {r s : CaseRange} {k : Nat} (h : r.isApart s = true)
    (hk : r.low + k ≤ r.high) (hstep : k % r.step = 0) : s.contains (r.low + k) = false := by
  refine Bool.eq_false_of_not_eq_true fun hs => ?_
  obtain ⟨hfirst, hlast, hmod⟩ := contains_iff.1 hs
  simp only [isApart, Bool.or_eq_true, Bool.and_eq_true, Nat.blt_eq, Nat.beq_eq,
    Bool.not_eq_true', Bool.eq_false_iff, ne_eq] at h
  rcases h with (h | h) | ⟨h, hgap⟩
  · omega
  · omega
  · -- Both letters have the same remainder, so the one is in a gap if the first one is.
    have hlow : (r.low + k) % s.step = s.first % s.step :=
      ((Nat.modEq_iff_dvd' hfirst).2 (Nat.dvd_of_mod_eq_zero hmod)).symm
    have hkstep : s.step ∣ k := by
      rcases h with h | h
      · have hk0 : k = 0 := by omega
        rw [hk0]
        exact dvd_zero _
      · exact (Nat.dvd_of_mod_eq_zero h).trans (Nat.dvd_of_mod_eq_zero hstep)
    obtain ⟨q, rfl⟩ := hkstep
    rw [Nat.add_mul_mod_self_left] at hlow
    exact hgap hlow

end Tables.CaseRange

/-! ## Code points -/

/-- Lowering leaves a code point as it is, wherever it stands. -/
def IsLower (c : CodePoint) : Prop := c ≠ .char 'Σ' ∧ lowerChar c = [c]

/-- A code point that is neither blank nor a comma. -/
def IsSolid (c : CodePoint) : Prop := isBlank c = false ∧ c ≠ .char ','

/-- What a letter of a range is mapped to. -/
theorem isLower_of_contains {r : Tables.CaseRange} {n : Nat} (hr : r ∈ Tables.upperCase)
    (h : r.contains n = true) :
    IsLower (.char (Char.ofNat (n + r.distance).toNat)) ∧
      IsSolid (.char (Char.ofNat (n + r.distance).toNat)) ∧
      CodePoint.char (Char.ofNat (n + r.distance).toNat) ≠ .char '.' := by
  obtain ⟨k, heq, hk, hstep⟩ := Tables.CaseRange.exists_low_add hr h
  rw [heq]
  have hplain := List.all_eq_true.1 Tables.CaseRange.isPlain_of_mem r hr
  simp only [Tables.CaseRange.isPlain, Bool.and_eq_true, List.all_eq_true] at hplain
  have hchar := hplain.2 (r.low + k) (List.mem_range'_1.2 ⟨Nat.le_add_right _ _, by omega⟩)
  simp only [Nat.beq_eq, Bool.not_eq_true', bne_iff_ne, ne_eq] at hchar
  obtain ⟨⟨⟨⟨hnat, hblank⟩, hcomma⟩, hdot⟩, hsigma⟩ := hchar
  refine ⟨⟨hsigma, ?_⟩, ⟨hblank, hcomma⟩, fun hstop => ?_⟩
  · have hnone : Tables.upperCase.find? (·.contains (r.low + k)) = none := by
      refine List.find?_eq_none.2 fun s hs => ?_
      have hapart := List.all_eq_true.1
        (List.all_eq_true.1 Tables.CaseRange.isApart_of_mem r hr) s hs
      rw [Tables.CaseRange.not_contains_low hapart hk hstep]
      exact Bool.false_ne_true
    rw [lowerChar, if_neg hdot, hnat, hnone]
  · have hamong := List.all_eq_true.1 Tables.CaseRange.isAmongLetters_of_mem r hr
    simp only [Tables.CaseRange.isAmongLetters, Bool.and_eq_true, Nat.blt_eq] at hamong
    have hlow : r.low + k = 0x2E := hnat.symm.trans (congrArg CodePoint.toNat hstop)
    omega

/-- A code point in lower case is either the code point itself or a letter. -/
theorem isLower_of_mem_lowerChar {c d : CodePoint} (hc : c ≠ .char 'Σ') (h : d ∈ lowerChar c) :
    IsLower d ∧ (d = c ∨ IsSolid d ∧ d ≠ .char '.') := by
  by_cases hdot : c = .char 'İ'
  · rw [lowerChar, if_pos hdot] at h
    simp only [List.mem_cons, List.not_mem_nil, or_false] at h
    rcases h with rfl | rfl
    · exact ⟨⟨by decide, by decide⟩, .inr ⟨⟨by decide, by decide⟩, by decide⟩⟩
    · exact ⟨⟨by decide, by decide⟩, .inr ⟨⟨by decide, by decide⟩, by decide⟩⟩
  · cases hfind : Tables.upperCase.find? (·.contains c.toNat) with
    | none =>
      have hlower : lowerChar c = [c] := by rw [lowerChar, if_neg hdot, hfind]
      rw [hlower] at h
      obtain rfl := List.mem_singleton.1 h
      exact ⟨⟨hc, hlower⟩, .inl rfl⟩
    | some r =>
      rw [lowerChar, if_neg hdot, hfind] at h
      obtain rfl := List.mem_singleton.1 h
      have hcontains : r.contains c.toNat = true :=
        List.find?_some (p := fun r : Tables.CaseRange => r.contains c.toNat) hfind
      obtain ⟨hlower, hsolid⟩ := isLower_of_contains (List.mem_of_find?_eq_some hfind) hcontains
      exact ⟨hlower, .inr hsolid⟩

theorem lowerChar_ne_nil (c : CodePoint) : lowerChar c ≠ [] := by
  unfold lowerChar
  split
  · exact List.cons_ne_nil _ _
  · split
    · exact List.cons_ne_nil _ _
    · exact List.cons_ne_nil _ _

theorem isLower_lowerSigma (before after : Text) :
    IsLower (lowerSigma before after) ∧ IsSolid (lowerSigma before after) ∧
      lowerSigma before after ≠ .char '.' := by
  unfold lowerSigma
  split
  · exact ⟨⟨by decide, by decide⟩, ⟨by decide, by decide⟩, by decide⟩
  · exact ⟨⟨by decide, by decide⟩, ⟨by decide, by decide⟩, by decide⟩

/-! ## Texts -/

/-- The lower case of a code point at its place in a text. -/
def lowerAt (before : Text) (c : CodePoint) (after : Text) : Text :=
  if c = 'Σ' then [lowerSigma before after] else lowerChar c

theorem lowerFrom_cons (before : Text) (c : CodePoint) (s : Text) :
    lowerFrom before (c :: s) = lowerAt before c s ++ lowerFrom (c :: before) s := rfl

theorem lowerAt_ne_nil (before : Text) (c : CodePoint) (after : Text) :
    lowerAt before c after ≠ [] := by
  unfold lowerAt
  split
  · exact List.cons_ne_nil _ _
  · exact lowerChar_ne_nil c

theorem lower_ne_nil {s : Text} (h : s ≠ []) : lower s ≠ [] := by
  obtain ⟨c, s, rfl⟩ := List.exists_cons_of_ne_nil h
  rw [lower, lowerFrom_cons]
  exact List.append_ne_nil_of_left_ne_nil (lowerAt_ne_nil _ _ _) _

theorem isLower_of_mem_lowerAt {before after : Text} {c d : CodePoint}
    (h : d ∈ lowerAt before c after) : IsLower d ∧ (d = c ∨ IsSolid d ∧ d ≠ .char '.') := by
  unfold lowerAt at h
  split at h
  · obtain rfl := List.mem_singleton.1 h
    exact ⟨(isLower_lowerSigma before after).1, .inr (isLower_lowerSigma before after).2⟩
  · case isFalse hc => exact isLower_of_mem_lowerChar hc h

/-- What is in the lower case of a text is in lower case, and in the text if it is a blank, a
    comma or a dot. -/
theorem isLower_of_mem_lower {s : Text} {d : CodePoint} (h : d ∈ lower s) :
    IsLower d ∧ (d ∈ s ∨ IsSolid d ∧ d ≠ .char '.') := by
  have hfrom : ∀ before, d ∈ lowerFrom before s →
      IsLower d ∧ (d ∈ s ∨ IsSolid d ∧ d ≠ .char '.') := by
    clear h
    induction s with
    | nil => exact fun before h => absurd h List.not_mem_nil
    | cons c s ih =>
      intro before h
      rw [lowerFrom_cons, List.mem_append] at h
      rcases h with h | h
      · obtain ⟨hlower, rfl | hsolid⟩ := isLower_of_mem_lowerAt h
        · exact ⟨hlower, .inl List.mem_cons_self⟩
        · exact ⟨hlower, .inr hsolid⟩
      · exact (ih (c :: before) h).imp_right (Or.imp_left (List.mem_cons_of_mem c))
  exact hfrom [] h

/-- A text in lower case stays as it is. -/
theorem lower_of_isLower {s : Text} (h : ∀ c ∈ s, IsLower c) : lower s = s := by
  have hfrom : ∀ before, lowerFrom before s = s := by
    induction s with
    | nil => exact fun before => rfl
    | cons c s ih =>
      intro before
      obtain ⟨hsigma, hc⟩ := h c List.mem_cons_self
      have hs : ∀ d ∈ s, IsLower d := fun d hd => h d (List.mem_cons_of_mem c hd)
      rw [lowerFrom_cons, lowerAt, if_neg hsigma, hc, ih hs]
      rfl
  exact hfrom []

/-! ## Blank ends -/

/-- A blank is no letter, so lowering leaves it as it is. -/
theorem lowerAt_of_isBlank {before after : Text} {c : CodePoint} (h : isBlank c = true) :
    lowerAt before c after = [c] := by
  have hsigma : c ≠ .char 'Σ' := by rintro rfl; exact absurd h (by decide)
  have hdot : c ≠ .char 'İ' := by rintro rfl; exact absurd h (by decide)
  have hnone : Tables.upperCase.find? (·.contains c.toNat) = none := by
    refine List.find?_eq_none.2 fun r hr hc => ?_
    obtain ⟨hfirst, hlast, -⟩ := Tables.CaseRange.contains_iff.1 hc
    have hamong := List.all_eq_true.1 Tables.CaseRange.isAmongLetters_of_mem r hr
    simp only [Tables.CaseRange.isAmongLetters, Bool.and_eq_true, Bool.or_eq_true,
      Nat.blt_eq] at hamong
    simp only [isBlank, Bool.or_eq_true, Bool.and_eq_true, decide_eq_true_eq, beq_iff_eq] at h
    omega
  rw [lowerAt, if_neg hsigma, lowerChar, if_neg hdot, hnone]

/-- Lowering makes no blank. -/
theorem mem_lowerAt_iff_of_isBlank {before after : Text} {c d : CodePoint}
    (h : isBlank d = true) : d ∈ lowerAt before c after ↔ d = c := by
  constructor
  · intro hd
    refine (isLower_of_mem_lowerAt hd).2.resolve_right fun hsolid => ?_
    exact Bool.false_ne_true (hsolid.1.1.symm.trans h)
  · rintro rfl
    rw [lowerAt_of_isBlank h]
    exact List.mem_singleton_self d

/-- A text begins with a blank just if it does so in lower case. -/
theorem head?_lower_iff {s : Text} {c : CodePoint} (h : isBlank c = true) :
    (lower s).head? = some c ↔ s.head? = some c := by
  cases s with
  | nil => exact Iff.rfl
  | cons d s =>
    rw [lower, lowerFrom_cons, List.head?_append_of_ne_nil _ (lowerAt_ne_nil _ _ _),
      List.head?_cons, Option.some_inj]
    constructor
    · intro hd
      exact ((mem_lowerAt_iff_of_isBlank h).1 (List.mem_of_mem_head? hd)).symm
    · rintro rfl
      rw [lowerAt_of_isBlank h]
      rfl

/-- A text ends with a blank just if it does so in lower case. -/
theorem getLast?_lower_iff {s : Text} {c : CodePoint} (h : isBlank c = true) :
    (lower s).getLast? = some c ↔ s.getLast? = some c := by
  have hfrom : ∀ before, (lowerFrom before s).getLast? = some c ↔ s.getLast? = some c := by
    induction s with
    | nil => exact fun before => Iff.rfl
    | cons d s ih =>
      intro before
      cases s with
      | nil =>
        rw [lowerFrom_cons, lowerFrom, List.append_nil, List.getLast?_singleton, Option.some_inj]
        constructor
        · intro hd
          exact ((mem_lowerAt_iff_of_isBlank h).1 (List.mem_of_getLast? hd)).symm
        · rintro rfl
          rw [lowerAt_of_isBlank h]
          rfl
      | cons e s =>
        have hne : lowerFrom (d :: before) (e :: s) ≠ [] := by
          rw [lowerFrom_cons]
          exact List.append_ne_nil_of_left_ne_nil (lowerAt_ne_nil _ _ _) _
        rw [lowerFrom_cons, List.getLast?_append_of_ne_nil _ hne, ih (d :: before),
          List.getLast?_cons_of_ne_nil (List.cons_ne_nil _ _)]
  exact hfrom []

/-- A text has blank ends just if it has them in lower case. -/
theorem isTight_lower_iff {s : Text} : IsTight (lower s) ↔ IsTight s :=
  forall₂_congr fun _ h => and_congr (not_congr (head?_lower_iff h)) (not_congr (getLast?_lower_iff h))

/-! ## A dot in front -/

/-- A dot is skipped in the search for a letter, so one at the far end makes no difference. -/
theorem startsCased_append_dot (s : Text) : startsCased (s ++ [.char '.']) = startsCased s := by
  have hdot : isCaseIgnorable (.char '.') = true := by decide +kernel
  rw [startsCased, startsCased, List.dropWhile_append]
  cases s.dropWhile isCaseIgnorable with
  | nil => rw [List.isEmpty_nil, if_pos rfl, List.dropWhile_cons_of_pos hdot]; rfl
  | cons c rest => rfl

theorem lowerFrom_append_dot (before s : Text) :
    lowerFrom (before ++ [.char '.']) s = lowerFrom before s := by
  induction s generalizing before with
  | nil => rfl
  | cons c s ih =>
    have hsigma : lowerSigma (before ++ [.char '.']) s = lowerSigma before s := by
      rw [lowerSigma, startsCased_append_dot, lowerSigma]
    rw [lowerFrom_cons, lowerFrom_cons, lowerAt, hsigma, ← lowerAt, ← List.cons_append, ih]

/-- A text is lowered in the same way behind a dot. -/
theorem lower_cons_dot (s : Text) : lower (.char '.' :: s) = .char '.' :: lower s := by
  have hdot : lowerAt [] (.char '.') s = [.char '.'] := by
    rw [lowerAt, if_neg (by decide)]
    decide +kernel
  rw [lower, lowerFrom_cons, hdot]
  exact congrArg (_ :: ·) (lowerFrom_append_dot [] s)

end KeyAudit.Text
