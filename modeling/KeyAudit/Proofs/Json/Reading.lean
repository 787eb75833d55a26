import Mathlib
import KeyAudit.Proofs.Json.Written

/-!
# Reading what is written

The reader reads every text of a value as that value (`read_of_isTextOf`), as long as the
value is not nested too deep and its numbers have not too many digits (`Within`).

It takes a part off the front of a text and leaves the rest (`Reads`). Within a string it
may hold the first half of a pair back until it sees what comes next, so what it reads then
may depend on what it has read before (`readChars_of_written`).
-/

namespace KeyAudit

/-- Arrays and objects are nested at most so deep, and no number has more digits than are
    read. -/
inductive Json.Within : Nat → Json → Prop
  | null {depth : Nat} : Within depth .null
  | bool {depth : Nat} (b : Bool) : Within depth (.bool b)
  | int {depth : Nat} {n : Int} : n.natAbs < 10 ^ Number.digitLimit → Within depth (.int n)
  | str {depth : Nat} (s : Text) : Within depth (.str s)
  | arr {depth : Nat} {js : List Json} : (∀ j ∈ js, Within depth j) → Within (depth + 1) (.arr js)
  | obj {depth : Nat} {ms : List (Text × Json)} : (∀ m ∈ ms, Within depth m.2) →
      Within (depth + 1) (.obj ms)

namespace Json

/-! ## Blank space -/

theorem skipSpace_of_begins {t : Text} (h : Begins t) : skipSpace t = t := by
  obtain ⟨c, hc, hs⟩ := h
  cases t with
  | nil => cases hc
  | cons d t =>
    cases hc
    exact List.dropWhile_cons_of_neg (by simp [hs])

theorem IsGap.skipSpace_append {gap t : Text} (hg : IsGap gap) (ht : Begins t) :
    skipSpace (gap ++ t) = t :=
  (List.dropWhile_append_of_pos hg).trans (skipSpace_of_begins ht)

theorem IsGap.skipSpace_cons {gap : Text} (hg : IsGap gap) (c : CodePoint)
    (hc : isSpace c = false) (t : Text) : skipSpace (gap ++ c :: t) = c :: t :=
  hg.skipSpace_append ⟨c, rfl, hc⟩

/-! ## Strings -/

theorem readChars_quote (start : Text) (cs : Chars) (rest : Text) :
    readChars start cs (.char '"' :: rest) = .ok (cs.settle.reverse, rest) := by
  rw [readChars]

theorem readChars_plain {c : CodePoint} (h : isPlain c = true) (start : Text) (cs : Chars)
    (rest : Text) : readChars start cs (c :: rest) = readChars start (cs.push c) rest := by
  simp only [isPlain, ne_eq, Bool.and_eq_true, decide_eq_true_eq] at h
  obtain ⟨⟨hlow, hquote⟩, hslash⟩ := h
  rw [readChars, if_neg (Nat.not_lt.2 hlow)]
  all_goals simp_all

theorem readChars_escape {c e : CodePoint} (h : escaped? e = some c) (start : Text) (cs : Chars)
    (rest : Text) :
    readChars start cs (.char '\\' :: e :: rest) = readChars start (cs.push c) rest := by
  have hu : e ≠ .char 'u' := by
    rintro rfl
    cases h
  rw [readChars]
  · simp only [h]
  all_goals simp_all

theorem readChars_unit {a b c d : CodePoint} {unit : Nat} (h : hexUnit? a b c d = some unit)
    (start : Text) (cs : Chars) {rest : Text} (hrest : rest ≠ []) :
    readChars start cs (unitEscape a b c d ++ rest) =
      readChars start (cs.pushUnit unit) rest := by
  have hempty : rest.isEmpty = false := by simpa using hrest
  simp only [unitEscape, List.cons_append, List.nil_append, readChars, hempty, h]
  rfl

theorem ofUnit?_unit (half : Surrogate) : Surrogate.ofUnit? half.unit = some half :=
  dif_pos half.isHalf

/-- A first half is held back. -/
theorem pushUnit_first (cs : Chars) {half : Surrogate} (h : half.isFirst = true) :
    cs.pushUnit half.unit = ⟨cs.settle, some half⟩ := by
  rw [Chars.pushUnit, ofUnit?_unit, Chars.settle]
  cases cs.first with
  | none => simp only [h, if_true]
  | some first => simp only [h, if_true]

/-- A second half makes a pair with the first half that is held back. -/
theorem pushUnit_second (done : Text) (first : Surrogate) {second : Surrogate}
    (h : second.isFirst = false) :
    Chars.pushUnit ⟨done, some first⟩ second.unit = ⟨.char (first.join second) :: done, none⟩ := by
  rw [Chars.pushUnit, ofUnit?_unit]
  simp only [h, Bool.false_eq_true, if_false]

/-- A second half stands alone if nothing is held back. -/
theorem pushUnit_lone {cs : Chars} (hcs : cs.first = none) {second : Surrogate}
    (h : second.isFirst = false) : cs.pushUnit second.unit = cs.push (.half second) := by
  rw [Chars.pushUnit, ofUnit?_unit, hcs]
  simp only [h, Bool.false_eq_true, if_false]

/-- A string is read as what has been written, after what has been read before. If a first
    half is held back, no second half must come first. -/
theorem readChars_of_written {v s : Text} (h : WrittenChars v s) (start rest : Text)
    (cs : Chars) (hcs : ∀ first, cs.first = some first → ∀ second,
      v.head? = some (.half second) → second.isFirst = true) :
    readChars start cs (s ++ .char '"' :: rest) = .ok (cs.settle.reverse ++ v, rest) := by
  induction h generalizing cs with
  | nil => rw [List.nil_append, readChars_quote, List.append_nil]
  | plain hc _ ih =>
    rw [List.cons_append, readChars_plain hc, ih _ fun _ h => by cases h]
    simp [Chars.push, Chars.settle]
  | escape he _ ih =>
    rw [List.cons_append, List.cons_append, readChars_escape he, ih _ fun _ h => by cases h]
    simp [Chars.push, Chars.settle]
  | @unit a b c d unit v s hu hnone _ ih =>
    have hpush : cs.pushUnit unit = cs.push (.char (Char.ofNat unit)) := by
      rw [Chars.pushUnit, hnone]
    rw [List.append_assoc, readChars_unit hu _ _ (by simp), hpush, ih _ fun _ h => by cases h]
    simp [Chars.push, Chars.settle]
  | @pair a b c d e f g h first second v s hu hfirst hu' hsecond _ ih =>
    rw [List.append_assoc, List.append_assoc, readChars_unit hu _ _ (by simp [unitEscape]),
      pushUnit_first cs hfirst, readChars_unit hu' _ _ (by simp), pushUnit_second _ _ hsecond,
      ih _ fun _ h => by cases h]
    simp [Chars.settle]
  | @half a b c d half v s hu hnext _ ih =>
    rw [List.append_assoc, readChars_unit hu _ _ (by simp)]
    cases hfirst : half.isFirst with
    | true =>
      -- It is held back in turn, and what comes next is no second half.
      rw [pushUnit_first cs hfirst, ih _ fun first hf => by
        cases hf
        exact hnext hfirst]
      simp [Chars.settle]
    | false =>
      -- Held back before it, a first half would make a pair with it.
      have hnone : cs.first = none := by
        cases hf : cs.first with
        | none => rfl
        | some first => exact absurd (hcs first hf half rfl) (by simp [hfirst])
      rw [pushUnit_lone hnone hfirst, ih _ fun _ h => by cases h]
      simp [Chars.push, Chars.settle]

theorem readString_of_written {v s : Text} (h : WrittenChars v s) (rest : Text) :
    readString (s ++ .char '"' :: rest) = .ok (v, rest) :=
  readChars_of_written h _ rest ⟨[], none⟩ fun _ h => by cases h

/-! ## Numbers -/

/-- A text begins with something that ends a number. -/
def Closes (rest : Text) : Prop :=
  ∀ c, rest.head? = some c → isSpace c = true ∨ c = .char ',' ∨ c = .char ']' ∨ c = .char '}'

/-- What ends a number is no part of it. -/
theorem Closes.not_part {c : CodePoint} {rest : Text} (h : Closes (c :: rest)) :
    isDigit c = false ∧ c ≠ .char '.' ∧ c ≠ .char 'e' ∧ c ≠ .char 'E' := by
  have hc := h c rfl
  simp only [isSpace, Bool.or_eq_true, beq_iff_eq] at hc
  rcases hc with (((rfl | rfl) | rfl) | rfl) | rfl | rfl | rfl <;> decide

theorem takeDigits_append {digits rest : Text} (hd : ∀ c ∈ digits, isDigit c = true)
    (hr : Closes rest) : takeDigits (digits ++ rest) = (digits, rest) := by
  rw [takeDigits, List.takeWhile_append_of_pos hd, List.dropWhile_append_of_pos hd]
  cases rest with
  | nil => rw [List.takeWhile_nil, List.append_nil, List.dropWhile_nil]
  | cons c rest =>
    have hc : ¬isDigit c = true := by simp [hr.not_part.1]
    rw [List.takeWhile_cons_of_neg hc, List.append_nil, List.dropWhile_cons_of_neg hc]

theorem takeFraction_of_closes {rest : Text} (h : Closes rest) :
    takeFraction rest = ([], rest) := by
  unfold takeFraction
  split
  · exact absurd rfl h.not_part.2.1
  · rfl

theorem takeExponent_of_closes {rest : Text} (h : Closes rest) :
    takeExponent rest = (none, rest) := by
  unfold takeExponent
  split
  · exact if_neg (not_or.2 h.not_part.2.2)
  · rfl

/-- Digits count for more the more of them follow. -/
theorem pow_le_foldl (digits : Text) (n : Nat) :
    n * 10 ^ digits.length ≤ digits.foldl (fun n c => 10 * n + (c.toNat - '0'.toNat)) n := by
  induction digits generalizing n with
  | nil => simp
  | cons c digits ih =>
    calc n * 10 ^ (digits.length + 1) = 10 * n * 10 ^ digits.length := by
          rw [Nat.pow_succ, Nat.mul_comm 10 n, Nat.mul_assoc, Nat.mul_comm 10]
      _ ≤ (10 * n + (c.toNat - '0'.toNat)) * 10 ^ digits.length :=
        Nat.mul_le_mul_right _ (Nat.le_add_right _ _)
      _ ≤ _ := ih _

/-- A number has no more digits than its value needs. -/
theorem IsNumeral.length_le {digits : Text} (h : IsNumeral digits) {limit : Nat}
    (hlimit : 0 < limit) (hvalue : digitsValue digits < 10 ^ limit) : digits.length ≤ limit := by
  obtain ⟨hne, hdigits, hzero⟩ := h
  obtain ⟨c, rest, rfl⟩ := List.exists_cons_of_ne_nil hne
  by_cases hc : c = .char '0'
  · rw [hzero (congrArg some hc)]
    exact hlimit
  · -- The first digit counts for at least one, with a power of ten for each that follows.
    have hdigit := hdigits c List.mem_cons_self
    have hpos : 1 ≤ 10 * 0 + (c.toNat - '0'.toNat) := by
      have hne : c.toNat ≠ '0'.toNat := fun hn => hc (CodePoint.toNat_inj hn)
      simp only [isDigit, CodePoint.isBetween, Bool.and_eq_true, decide_eq_true_eq] at hdigit
      omega
    have hle : 10 ^ rest.length ≤ digitsValue (c :: rest) :=
      calc 10 ^ rest.length = 1 * 10 ^ rest.length := (Nat.one_mul _).symm
        _ ≤ (10 * 0 + (c.toNat - '0'.toNat)) * 10 ^ rest.length := Nat.mul_le_mul_right _ hpos
        _ ≤ _ := pow_le_foldl rest _
    exact (Nat.pow_lt_pow_iff_right (by decide : 1 < 10)).1 (Nat.lt_of_le_of_lt hle hvalue)

theorem readUnsigned_append {digits : Text} (h : IsNumeral digits)
    (hlength : digits.length ≤ Number.digitLimit) (start : Text) (negative : Bool) {rest : Text}
    (hr : Closes rest) :
    readUnsigned start negative (digits ++ rest) =
      .ok (.int (Number.withSign negative (digitsValue digits)), rest) := by
  have hempty : digits.isEmpty = false := by simpa using h.1
  have hlimit : ¬digits.length > Number.digitLimit := Nat.not_lt.2 hlength
  unfold readUnsigned
  split
  · case h_1 whole after hwhole =>
    -- A zero is taken alone, other digits up to what ends the number.
    have hsplit : (digits, rest) = (whole, after) := by
      rw [← hwhole]
      split
      · case h_1 more hmore =>
          obtain ⟨c, tail, rfl⟩ := List.exists_cons_of_ne_nil h.1
          have hc : c = .char '0' := (List.cons.inj hmore).1
          have hzero := h.2.2 (congrArg some hc)
          rw [hzero] at hmore ⊢
          rw [← (List.cons.inj hmore).2]
          rfl
      · exact (takeDigits_append h.2.1 hr).symm
    cases hsplit
    simp only [takeFraction_of_closes hr, takeExponent_of_closes hr, hempty, Bool.false_eq_true,
      if_false, List.isEmpty_nil, Option.isNone_none, Bool.and_self, if_true, if_neg hlimit]

/-- A number is read up to what ends it. -/
theorem readNumber_append {digits : Text} (h : IsNumeral digits)
    (hlength : digits.length ≤ Number.digitLimit) {rest : Text} (hr : Closes rest) :
    readNumber (digits ++ rest) =
        .ok (.int (Number.withSign false (digitsValue digits)), rest) ∧
      readNumber (.char '-' :: (digits ++ rest)) =
        .ok (.int (Number.withSign true (digitsValue digits)), rest) := by
  constructor
  · unfold readNumber
    split
    · case h_1 tail htail =>
        -- A sign is no digit.
        obtain ⟨c, ds, rfl⟩ := List.exists_cons_of_ne_nil h.1
        have hc := h.2.1 c List.mem_cons_self
        rw [(List.cons.inj htail).1] at hc
        exact absurd hc (by decide)
    · exact readUnsigned_append h hlength _ false hr
  · exact readUnsigned_append h hlength _ true hr

/-- No word begins like a number. -/
theorem word?_of_isDigit {c : CodePoint} (h : isDigit c = true) (rest : Text) :
    word? (c :: rest) = none ∧ word? (.char '-' :: c :: rest) = none := by
  have hwords : ∀ w ∈ words, 2 ≤ w.1.length ∧ ∀ d ∈ w.1.take 2, isDigit d = false := by
    decide
  have hnone : ∀ s : Text, (∃ d ∈ s.take 2, isDigit d = true) → word? s = none := by
    rintro s ⟨d, hd, hdigit⟩
    refine List.findSome?_eq_none_iff.2 fun w hw => if_neg fun hp => ?_
    obtain ⟨hlength, hletters⟩ := hwords w hw
    obtain ⟨more, rfl⟩ := List.isPrefixOf_iff_prefix.1 hp
    rw [List.take_append_of_le_length hlength] at hd
    exact absurd hdigit (by simp [hletters d hd])
  exact ⟨hnone _ ⟨c, by simp, h⟩, hnone _ ⟨c, by simp, h⟩⟩

/-! ## Values -/

/-- What is written for a part begins neither with a closing bracket nor with the mark of
    the byte order. -/
theorem Written.head?_ne {part : Part} {t : Text} (h : Written part t) {c : CodePoint}
    (hc : c ∈ ([']', '\x7d', '\uFEFF'] : Text)) : t.head? ≠ some c := by
  have hdigit : ∀ d ∈ ([']', '\x7d', '\uFEFF'] : Text), isDigit d = false := by decide
  induction h with
  | null | negative | str | emptyArr | arr | emptyObj | obj =>
    rintro ⟨⟩
    exact absurd hc (by decide)
  | bool b => cases b <;> rintro ⟨⟩ <;> exact absurd hc (by decide)
  | natural hd =>
    intro hhead
    have hdigit' := hd.2.1 c (List.mem_of_head? hhead)
    rw [hdigit c hc] at hdigit'
    cases hdigit'
  | lastItem ht _ ih => rwa [ht.begins.head?_append]
  | item ht _ _ _ ih _ => rwa [ht.begins.head?_append]
  | lastMember hn | member hn =>
    rw [hn.begins.head?_append]
    cases hn
    rintro ⟨⟩
    exact absurd hc (by decide)

/-- What begins with neither a quote nor an opening bracket is a word or a number. -/
theorem readValue_bare {c : CodePoint} (hc : c ≠ '"' ∧ c ≠ '\x7b' ∧ c ≠ '[') (fuel depth : Nat)
    (s : Text) : readValue (fuel + 1) depth (c :: s) =
      match word? (c :: s) with
      | some read => .ok read
      | none => readNumber (c :: s) :=
  readValue.eq_9 depth (c :: s) fuel (fun _ h => hc.1 (List.cons.inj h).1)
    (fun _ h => hc.2.1 (List.cons.inj h).1) fun _ h => hc.2.2 (List.cons.inj h).1

theorem readValue_number {digits rest : Text} (hd : IsNumeral digits)
    (hlength : digits.length ≤ Number.digitLimit) (hr : Closes rest) (fuel depth : Nat) :
    readValue (fuel + 1) depth (digits ++ rest) =
        .ok (.int (Number.withSign false (digitsValue digits)), rest) ∧
      readValue (fuel + 1) depth (.char '-' :: (digits ++ rest)) =
        .ok (.int (Number.withSign true (digitsValue digits)), rest) := by
  obtain ⟨c, tail, rfl⟩ := List.exists_cons_of_ne_nil hd.1
  have hc := hd.2.1 c List.mem_cons_self
  have hbare : c ≠ '"' ∧ c ≠ '\x7b' ∧ c ≠ '[' := by
    refine ⟨?_, ?_, ?_⟩ <;> rintro rfl <;> exact absurd hc (by decide)
  obtain ⟨hword, hword'⟩ := word?_of_isDigit hc (tail ++ rest)
  obtain ⟨hnumber, hnumber'⟩ := readNumber_append hd hlength hr
  rw [List.cons_append] at hnumber hnumber' ⊢
  constructor
  · rw [readValue_bare hbare, hword]
    exact hnumber
  · rw [readValue_bare (by decide), hword']
    exact hnumber'

/-- The items of an array are read one level deeper. -/
theorem readValue_arr (fuel depth : Nat) {gap t : Text} (hg : IsGap gap) (ht : Begins t)
    (hne : t.head? ≠ some (.char ']')) :
    readValue (fuel + 1) (depth + 1) (.char '[' :: (gap ++ t)) = readItems fuel depth [] t := by
  have hskip := hg.skipSpace_append ht
  rw [readValue.eq_8, hskip]
  exact fun rest hrest => hne (congrArg List.head? (hskip.symm.trans hrest))

/-- The members of an object are read one level deeper. -/
theorem readValue_obj (fuel depth : Nat) {gap t : Text} (hg : IsGap gap) (ht : Begins t)
    (hne : t.head? ≠ some (.char '\x7d')) :
    readValue (fuel + 1) (depth + 1) (.char '\x7b' :: (gap ++ t)) =
      readMembers fuel depth [] t := by
  have hskip := hg.skipSpace_append ht
  rw [readValue.eq_5, hskip]
  exact fun rest hrest => hne (congrArg List.head? (hskip.symm.trans hrest))

variable {fuel depth : Nat} {s t rest gap before after : Text} {j : Json}

/-- The last item of an array is read up to the bracket. -/
theorem readItems_last (done : List Json)
    (h : readValue fuel depth s = .ok (j, gap ++ .char ']' :: rest)) (hg : IsGap gap) :
    readItems (fuel + 1) depth done s = .ok (.arr (done.reverse ++ [j]), rest) := by
  simp only [readItems, h, hg.skipSpace_cons ']' rfl, List.reverse_cons]

/-- After a comma the next items are read. -/
theorem readItems_comma (done : List Json)
    (h : readValue fuel depth s = .ok (j, before ++ .char ',' :: (after ++ t)))
    (hb : IsGap before) (ha : IsGap after) (ht : Begins t) :
    readItems (fuel + 1) depth done s = readItems fuel depth (j :: done) t := by
  rw [readItems, h]
  simp only [hb.skipSpace_cons ',' rfl, ha.skipSpace_append ht]

/-- The last member of an object is read up to the bracket. -/
theorem readMembers_last {name n : Text} (done : List (Text × Json)) (hn : WrittenName name n)
    (hs : Begins s) (h : readValue fuel depth s = .ok (j, gap ++ .char '\x7d' :: rest))
    (hg : IsGap gap) :
    readMembers (fuel + 1) depth done (n ++ s) = .ok (.obj (assign name j done), rest) := by
  cases hn with
  | mk hname hb ha =>
    simp only [List.cons_append, List.append_assoc, readMembers, readString_of_written hname,
      hb.skipSpace_cons ':' rfl, ha.skipSpace_append hs, h, hg.skipSpace_cons '\x7d' rfl]

/-- After a comma the next members are read. -/
theorem readMembers_comma {name n : Text} (done : List (Text × Json)) (hn : WrittenName name n)
    (hs : Begins s) (h : readValue fuel depth s = .ok (j, before ++ .char ',' :: (after ++ t)))
    (hb : IsGap before) (ha : IsGap after) (ht : Begins t) :
    readMembers (fuel + 1) depth done (n ++ s) =
      readMembers fuel depth (assign name j done) t := by
  cases hn with
  | mk hname hb' ha' =>
    rw [List.cons_append, readMembers]
    simp only [List.cons_append, List.append_assoc, readString_of_written hname,
      hb'.skipSpace_cons ':' rfl, ha'.skipSpace_append hs, h, hb.skipSpace_cons ',' rfl,
      ha.skipSpace_append ht]

theorem closes_cons {c : CodePoint} (h : c = ',' ∨ c = ']' ∨ c = '\x7d') (t : Text) :
    Closes (c :: t) := by
  rintro _ ⟨⟩
  exact .inr h

/-- Blank space in front of what ends a value ends it as well. -/
theorem IsGap.closes_append {gap t : Text} (hg : IsGap gap) (ht : Closes t) :
    Closes (gap ++ t) := by
  cases gap with
  | nil => exact ht
  | cons c gap =>
    rintro _ ⟨⟩
    exact .inl (hg c List.mem_cons_self)

/-- The reader takes a part off the front of a text. Every step takes off something, so
    the number of characters bounds the number of steps. -/
def Reads : Part → Text → Prop
  | .value j, t => ∀ fuel depth rest, t.length ≤ fuel → j.Within depth → Closes rest →
      readValue fuel depth (t ++ rest) = .ok (j, rest)
  | .items js, t => ∀ fuel depth done rest, t.length ≤ fuel → (∀ j ∈ js, j.Within depth) →
      readItems fuel depth done (t ++ rest) = .ok (.arr (done.reverse ++ js), rest)
  | .members ms, t => ∀ fuel depth done rest, t.length ≤ fuel →
      (∀ m ∈ ms, m.2.Within depth) → ((done ++ ms).map Prod.fst).Nodup →
      readMembers fuel depth done (t ++ rest) = .ok (.obj (done ++ ms), rest)

/-- The name of the next member is new. -/
theorem not_mem_of_nodup {name : Text} {j : Json} {done ms : List (Text × Json)}
    (h : ((done ++ (name, j) :: ms).map Prod.fst).Nodup) : name ∉ done.map Prod.fst := by
  rw [List.map_append, List.nodup_append] at h
  exact fun hm => h.2.2 name hm name List.mem_cons_self rfl

/-- Whatever is written for a part is taken off the front of a text. -/
theorem reads {part : Part} {t : Text} (h : Written part t) : Reads part t := by
  -- By induction on how the part is written. No text is empty, so a step is left for it.
  induction h with
  | null =>
    rintro (_ | fuel) depth rest hfuel - -
    · cases hfuel
    · rfl
  | bool b =>
    rintro (_ | fuel) depth rest hfuel - -
    · cases b <;> cases hfuel
    · cases b <;> rfl
  | @natural digits hd =>
    rintro (_ | fuel) depth rest hfuel (⟨⟩ | ⟨⟩ | ⟨hn⟩) hr
    · exact absurd (List.length_eq_zero_iff.1 (Nat.le_zero.1 hfuel)) hd.1
    · rw [Number.natAbs_withSign] at hn
      exact (readValue_number hd (hd.length_le (by decide) hn) hr fuel depth).1
  | negative hd =>
    rintro (_ | fuel) depth rest hfuel (⟨⟩ | ⟨⟩ | ⟨hn⟩) hr
    · cases hfuel
    · rw [Number.natAbs_withSign] at hn
      exact (readValue_number hd (hd.length_le (by decide) hn) hr fuel depth).2
  | str hs =>
    rintro (_ | fuel) depth rest hfuel - -
    · cases hfuel
    · rw [List.cons_append, readValue, List.append_assoc, List.singleton_append,
        readString_of_written hs]
  | emptyArr hg =>
    rintro (_ | fuel) (_ | depth) rest hfuel hw -
    · cases hfuel
    · cases hfuel
    · cases hw
    · rw [List.cons_append, List.append_assoc]
      exact readValue.eq_7 _ _ _ _ nofun (hg.skipSpace_cons ']' rfl rest)
  | emptyObj hg =>
    rintro (_ | fuel) (_ | depth) rest hfuel hw -
    · cases hfuel
    · cases hfuel
    · cases hw
    · rw [List.cons_append, List.append_assoc]
      exact readValue.eq_4 _ _ _ _ nofun (hg.skipSpace_cons '\x7d' rfl rest)
  | arr hg ht ih =>
    rintro (_ | fuel) (_ | depth) rest hfuel hw -
    · cases hfuel
    · cases hfuel
    · cases hw
    · have hne := ht.begins.head?_append rest ▸ ht.head?_ne (c := ']') (by decide)
      rw [List.cons_append, List.append_assoc,
        readValue_arr fuel depth hg (ht.begins.append rest) hne]
      cases hw with
      | arr hw => exact ih fuel depth [] rest (by simp at hfuel; omega) hw
  | obj hnames hg ht ih =>
    rintro (_ | fuel) (_ | depth) rest hfuel hw -
    · cases hfuel
    · cases hfuel
    · cases hw
    · have hne := ht.begins.head?_append rest ▸ ht.head?_ne (c := '\x7d') (by decide)
      rw [List.cons_append, List.append_assoc,
        readValue_obj fuel depth hg (ht.begins.append rest) hne]
      cases hw with
      | obj hw => exact ih fuel depth [] rest (by simp at hfuel; omega) hw hnames
  | @lastItem j t gap ht hg ih =>
    rintro (_ | fuel) depth done rest hfuel hw
    · simp at hfuel
    · have hr : Closes (gap ++ .char ']' :: rest) := hg.closes_append (closes_cons (by simp) _)
      have hread := ih fuel depth _ (by simp at hfuel; omega) (hw j List.mem_cons_self) hr
      rw [List.append_assoc, List.append_assoc]
      exact readItems_last done hread hg
  | @item j js t before after u ht hb ha hu iht ihu =>
    rintro (_ | fuel) depth done rest hfuel hw
    · simp at hfuel
    · have hr : Closes (before ++ .char ',' :: (after ++ (u ++ rest))) :=
        hb.closes_append (closes_cons (by simp) _)
      have hread := iht fuel depth _ (by simp at hfuel; omega) (hw j List.mem_cons_self) hr
      have hmore := ihu fuel depth (j :: done) rest (by simp at hfuel; omega)
        fun k hk => hw k (List.mem_cons_of_mem _ hk)
      rw [List.append_assoc, List.append_assoc, List.cons_append, List.append_assoc,
        readItems_comma done hread hb ha (hu.begins.append rest), hmore, List.reverse_cons,
        List.append_assoc, List.singleton_append]
  | @lastMember name j n t gap hn ht hg ih =>
    rintro (_ | fuel) depth done rest hfuel hw hnames
    · simp at hfuel
    · have hr : Closes (gap ++ .char '\x7d' :: rest) :=
        hg.closes_append (closes_cons (by simp) _)
      have hread := ih fuel depth _ (by simp at hfuel; omega) (hw _ List.mem_cons_self) hr
      rw [List.append_assoc, List.append_assoc, List.append_assoc, List.singleton_append,
        readMembers_last done hn (ht.begins.append _) hread hg,
        assign_of_not_mem j (not_mem_of_nodup hnames)]
  | @member name j ms n t before after u hn ht hb ha hu iht ihu =>
    rintro (_ | fuel) depth done rest hfuel hw hnames
    · simp at hfuel
    · have hr : Closes (before ++ .char ',' :: (after ++ (u ++ rest))) :=
        hb.closes_append (closes_cons (by simp) _)
      have hread := iht fuel depth _ (by simp at hfuel; omega) (hw _ List.mem_cons_self) hr
      have hmore := ihu fuel depth (done ++ [(name, j)]) rest (by simp at hfuel; omega)
        (fun m hm => hw m (List.mem_cons_of_mem _ hm))
        (by rwa [List.append_assoc, List.singleton_append])
      rw [List.append_assoc, List.append_assoc, List.append_assoc, List.cons_append,
        List.append_assoc, readMembers_comma done hn (ht.begins.append _) hread hb ha
          (hu.begins.append rest),
        assign_of_not_mem j (not_mem_of_nodup hnames), hmore, List.append_assoc,
        List.singleton_append]

/-- The reader reads a text of a value as that value. -/
theorem read_of_isTextOf {j : Json} {s : Text} (h : IsTextOf j s)
    (hw : j.Within nestingLimit) : Json.read s = .ok j := by
  obtain ⟨before, t, after, hb, ht, ha, rfl⟩ := h
  have hmark : (before ++ (t ++ after)).head? ≠ some (.char '\uFEFF') := by
    cases before with
    | nil => exact ht.begins.head?_append after ▸ ht.head?_ne (by decide)
    | cons c before =>
      rintro ⟨⟩
      exact absurd (hb _ List.mem_cons_self) (by decide)
  have hread := reads ht (2 * (before ++ (t ++ after)).length + 1) nestingLimit after
    (by simp only [List.length_append]; omega) hw fun c hc => .inl (ha c (List.mem_of_head? hc))
  have hend : skipSpace after = [] := List.dropWhile_eq_nil_iff.2 ha
  unfold Json.read
  split
  · case h_1 more htext => exact absurd (congrArg List.head? htext) hmark
  · simp only [hb.skipSpace_append (ht.begins.append after), hread, hend]

end Json

end KeyAudit
