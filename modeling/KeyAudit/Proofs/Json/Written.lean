import Mathlib.Data.List.Basic
import KeyAudit.Config.Load

/-!
# JSON texts

The ways to write a value in JSON, as far as there are no floating point numbers in it. A
string may be written with or without escapes, and beyond the first plane an escape takes
both halves of a pair (`WrittenChars`). Members have different names, and come in their
order. Blank space may stand between all parts, with any kind of line ends: that these are
made uniform before a configuration is read leaves it a text of the same value
(`IsTextOf.uniformLineEnds`).
-/

namespace KeyAudit.Json

/-- Blank space. -/
def IsGap (s : Text) : Prop := ∀ c ∈ s, isSpace c = true

instance (s : Text) : Decidable (IsGap s) :=
  inferInstanceAs (Decidable (∀ c ∈ s, isSpace c = true))

/-- Whether a code point stands for itself within a string. -/
def isPlain (c : CodePoint) : Bool := 0x20 ≤ c.toNat && c ≠ '"' && c ≠ '\\'

/-- The escape with four hexadecimal digits. -/
def unitEscape (a b c d : CodePoint) : Text := ['\\', 'u', a, b, c, d]

/-- What may be written between quotes for a text. A first half that stands alone must not
    be followed by a second half, with which it would make a pair. -/
inductive WrittenChars : Text → Text → Prop
  | nil : WrittenChars [] []
  | plain {c : CodePoint} {v s : Text} : isPlain c = true → WrittenChars v s →
      WrittenChars (c :: v) (c :: s)
  | escape {c e : CodePoint} {v s : Text} : escaped? e = some c → WrittenChars v s →
      WrittenChars (c :: v) (.char '\\' :: e :: s)
  | unit {a b c d : CodePoint} {unit : Nat} {v s : Text} : hexUnit? a b c d = some unit →
      Surrogate.ofUnit? unit = none → WrittenChars v s →
      WrittenChars (.char (Char.ofNat unit) :: v) (unitEscape a b c d ++ s)
  | pair {a b c d e f g h : CodePoint} {first second : Surrogate} {v s : Text} :
      hexUnit? a b c d = some first.unit → first.isFirst = true →
      hexUnit? e f g h = some second.unit → second.isFirst = false → WrittenChars v s →
      WrittenChars (.char (first.join second) :: v)
        (unitEscape a b c d ++ (unitEscape e f g h ++ s))
  | half {a b c d : CodePoint} {half : Surrogate} {v s : Text} :
      hexUnit? a b c d = some half.unit →
      (half.isFirst = true → ∀ second, v.head? = some (.half second) → second.isFirst = true) →
      WrittenChars v s → WrittenChars (.half half :: v) (unitEscape a b c d ++ s)

/-- The digits of a number. Only the number zero begins with a zero. -/
def IsNumeral (digits : Text) : Prop :=
  digits ≠ [] ∧ (∀ c ∈ digits, isDigit c = true) ∧
    (digits.head? = some (.char '0') → digits = ['0'])

instance (digits : Text) : Decidable (IsNumeral digits) := inferInstanceAs (Decidable (_ ∧ _ ∧ _))

/-- What is written in front of the value of a member: its name and the colon. -/
inductive WrittenName (name : Text) : Text → Prop
  | mk {s before after : Text} : WrittenChars name s → IsGap before → IsGap after →
      WrittenName name (.char '"' :: (s ++ .char '"' :: (before ++ .char ':' :: after)))

/-- What is written at a stretch: a value, or an array or an object from its first item or
    member on. -/
inductive Part
  | value (j : Json)
  | items (js : List Json)
  | members (ms : List (Text × Json))

/-- What may be written for a part. -/
inductive Written : Part → Text → Prop
  | null : Written (.value .null) "null"
  | bool (b : Bool) : Written (.value (.bool b)) (if b then "true" else "false" : String)
  | natural {digits : Text} : IsNumeral digits →
      Written (.value (.int (Number.withSign false (digitsValue digits)))) digits
  | negative {digits : Text} : IsNumeral digits →
      Written (.value (.int (Number.withSign true (digitsValue digits)))) (.char '-' :: digits)
  | str {v s : Text} : WrittenChars v s → Written (.value (.str v)) (.char '"' :: (s ++ [.char '"']))
  | emptyArr {gap : Text} : IsGap gap → Written (.value (.arr [])) (.char '[' :: (gap ++ [.char ']']))
  | arr {js : List Json} {gap t : Text} : IsGap gap → Written (.items js) t →
      Written (.value (.arr js)) (.char '[' :: (gap ++ t))
  | lastItem {j : Json} {t gap : Text} : Written (.value j) t → IsGap gap →
      Written (.items [j]) (t ++ (gap ++ [.char ']']))
  | item {j : Json} {js : List Json} {t before after u : Text} : Written (.value j) t →
      IsGap before → IsGap after → Written (.items js) u →
      Written (.items (j :: js)) (t ++ (before ++ .char ',' :: (after ++ u)))
  | emptyObj {gap : Text} : IsGap gap →
      Written (.value (.obj [])) (.char '{' :: (gap ++ [.char '}']))
  | obj {ms : List (Text × Json)} {gap t : Text} : (ms.map Prod.fst).Nodup → IsGap gap →
      Written (.members ms) t → Written (.value (.obj ms)) (.char '{' :: (gap ++ t))
  | lastMember {name : Text} {j : Json} {n t gap : Text} : WrittenName name n →
      Written (.value j) t → IsGap gap →
      Written (.members [(name, j)]) (n ++ (t ++ (gap ++ [.char '}'])))
  | member {name : Text} {j : Json} {ms : List (Text × Json)} {n t before after u : Text} :
      WrittenName name n → Written (.value j) t → IsGap before → IsGap after →
      Written (.members ms) u →
      Written (.members ((name, j) :: ms)) (n ++ (t ++ (before ++ .char ',' :: (after ++ u))))

/-- A text of a value, with blank space around it. -/
def IsTextOf (j : Json) (s : Text) : Prop :=
  ∃ before t after, IsGap before ∧ Written (.value j) t ∧ IsGap after ∧
    s = before ++ (t ++ after)

/-! ## What parts begin and end with -/

/-- A digit is no blank space. -/
theorem isSpace_of_isDigit {c : CodePoint} (h : isDigit c = true) : isSpace c = false := by
  refine Bool.eq_false_iff.2 fun hs => ?_
  simp only [isSpace, Bool.or_eq_true, beq_iff_eq] at hs
  rcases hs with ((rfl | rfl) | rfl) | rfl <;> exact absurd h (by decide)

/-- A code unit is written with four digits. -/
theorem hexDigit?_of_hexUnit? {a b c d : CodePoint} {unit : Nat}
    (h : hexUnit? a b c d = some unit) :
    ∃ w x y z, hexDigit? a = some w ∧ hexDigit? b = some x ∧ hexDigit? c = some y ∧
      hexDigit? d = some z ∧ unit = ((w * 16 + x) * 16 + y) * 16 + z := by
  simp only [hexUnit?, Option.bind_eq_bind, Option.bind_eq_some_iff, Option.pure_def,
    Option.some.injEq] at h
  obtain ⟨w, hw, x, hx, y, hy, z, hz, h⟩ := h
  exact ⟨w, x, y, z, hw, hx, hy, hz, h.symm⟩

/-- An escape has no line end. -/
theorem not_mem_unitEscape {a b c d : CodePoint} {unit : Nat}
    (h : hexUnit? a b c d = some unit) : CodePoint.char '\r' ∉ unitEscape a b c d := by
  have hnone : hexDigit? '\r' = none := by decide
  obtain ⟨w, x, y, z, hw, hx, hy, hz, -⟩ := hexDigit?_of_hexUnit? h
  intro hr
  simp only [unitEscape, List.mem_cons, List.not_mem_nil, or_false] at hr
  rcases hr with hr | hr | rfl | rfl | rfl | rfl
  · cases hr
  · cases hr
  · cases hnone.symm.trans hw
  · cases hnone.symm.trans hx
  · cases hnone.symm.trans hy
  · cases hnone.symm.trans hz

/-- Without anything to escape, a text may be written as it is. -/
theorem writtenChars_of_isPlain {s : Text} (h : ∀ c ∈ s, isPlain c = true) :
    WrittenChars s s := by
  induction s with
  | nil => exact .nil
  | cons c s ih =>
    exact .plain (h c List.mem_cons_self) (ih fun d hd => h d (List.mem_cons_of_mem _ hd))

/-- What is written between quotes does not end a line. -/
theorem WrittenChars.not_mem {v s : Text} (h : WrittenChars v s) : CodePoint.char '\r' ∉ s := by
  induction h with
  | nil => exact List.not_mem_nil
  | plain hc _ ih =>
    refine List.not_mem_cons_of_ne_of_not_mem ?_ ih
    rintro rfl
    exact absurd hc (by decide)
  | escape he _ ih =>
    refine List.not_mem_cons_of_ne_of_not_mem (by decide)
      (List.not_mem_cons_of_ne_of_not_mem ?_ ih)
    rintro rfl
    cases he
  | unit hu _ _ ih => exact List.mem_append.not.2 (not_or_intro (not_mem_unitEscape hu) ih)
  | pair hf _ hs _ _ ih =>
    exact List.mem_append.not.2 (not_or_intro (not_mem_unitEscape hf)
      (List.mem_append.not.2 (not_or_intro (not_mem_unitEscape hs) ih)))
  | half hu _ _ ih => exact List.mem_append.not.2 (not_or_intro (not_mem_unitEscape hu) ih)

/-- A text begins with something else than blank space. -/
def Begins (t : Text) : Prop := ∃ c, t.head? = some c ∧ isSpace c = false

/-- A text ends with something else than blank space. -/
def Ends (t : Text) : Prop := ∃ c, t.getLast? = some c ∧ isSpace c = false

theorem Begins.head?_append {s : Text} (h : Begins s) (t : Text) :
    (s ++ t).head? = s.head? := by
  obtain ⟨c, hc, -⟩ := h
  rw [List.head?_append, hc, Option.some_or]

theorem Begins.append {s : Text} (h : Begins s) (t : Text) : Begins (s ++ t) := by
  obtain ⟨c, hc, hs⟩ := h
  exact ⟨c, (Begins.head?_append ⟨c, hc, hs⟩ t).trans hc, hs⟩

theorem Ends.append {t : Text} (h : Ends t) (s : Text) : Ends (s ++ t) := by
  obtain ⟨c, hc, hs⟩ := h
  exact ⟨c, by rw [List.getLast?_append, hc, Option.some_or], hs⟩

theorem Ends.cons {t : Text} (h : Ends t) (c : CodePoint) : Ends (c :: t) := h.append [c]

theorem IsNumeral.begins {digits : Text} (h : IsNumeral digits) : Begins digits := by
  obtain ⟨c, rest, rfl⟩ := List.exists_cons_of_ne_nil h.1
  exact ⟨c, rfl, isSpace_of_isDigit (h.2.1 c List.mem_cons_self)⟩

theorem IsNumeral.ends {digits : Text} (h : IsNumeral digits) : Ends digits :=
  ⟨digits.getLast h.1, List.getLast?_eq_some_getLast h.1,
    isSpace_of_isDigit (h.2.1 _ (List.getLast_mem h.1))⟩

theorem WrittenName.begins {name n : Text} (h : WrittenName name n) : Begins n := by
  cases h
  exact ⟨_, rfl, rfl⟩

/-- What is written for a part does not begin with blank space. -/
theorem Written.begins {part : Part} {t : Text} (h : Written part t) : Begins t := by
  induction h with
  | null => exact ⟨'n', rfl, rfl⟩
  | bool b => cases b <;> exact ⟨_, rfl, rfl⟩
  | natural hd => exact hd.begins
  | negative | str | emptyArr | arr | emptyObj | obj => exact ⟨_, rfl, rfl⟩
  | lastItem _ _ ih => exact ih.append _
  | item _ _ _ _ ih _ => exact ih.append _
  | lastMember hn | member hn => exact hn.begins.append _

/-- What is written for a part does not end with blank space. -/
theorem Written.ends {part : Part} {t : Text} (h : Written part t) : Ends t := by
  induction h with
  | null => exact ⟨'l', rfl, rfl⟩
  | bool b => cases b <;> exact ⟨'e', rfl, rfl⟩
  | natural hd => exact hd.ends
  | negative hd => exact hd.ends.cons _
  | str | emptyArr | emptyObj => exact .cons (.append ⟨_, rfl, rfl⟩ _) _
  | arr _ _ ih | obj _ _ _ ih => exact (ih.append _).cons _
  | lastItem => exact .append (.append ⟨_, rfl, rfl⟩ _) _
  | item _ _ _ _ _ ih => exact (((ih.append _).cons _).append _).append _
  | lastMember => exact .append (.append (.append ⟨_, rfl, rfl⟩ _) _) _
  | member _ _ _ _ _ _ ih => exact ((((ih.append _).cons _).append _).append _).append _

/-! ## Line ends -/

/-- Making line ends uniform goes on after a place that does not divide a line end. -/
theorem uniformLineEnds_append {s t : Text}
    (h : s.getLast? = some (.char '\r') → t.head? ≠ some (.char '\n')) :
    Config.uniformLineEnds (s ++ t) = Config.uniformLineEnds s ++ Config.uniformLineEnds t := by
  have hlast : ∀ {c : CodePoint} {rest : Text}, rest.getLast? = some (.char '\r') →
      (c :: rest).getLast? = some (.char '\r') := fun hr => by simp [List.getLast?_cons, hr]
  fun_induction Config.uniformLineEnds s with
  | case1 => rfl
  | case2 rest ih =>
    rw [List.cons_append, List.cons_append, Config.uniformLineEnds,
      ih fun hr => h (hlast (hlast hr))]
    rfl
  | case3 c rest hcr ih =>
    rw [List.cons_append, Config.uniformLineEnds, ih fun hr => h (hlast hr)]
    · rfl
    · -- Only a carriage return at the end could go together with what is appended.
      rintro more rfl hmore
      cases rest with
      | nil => exact h rfl (by rw [← List.nil_append t, hmore]; rfl)
      | cons d rest => exact hcr rest rfl (by rw [(List.cons.inj hmore).1])

theorem uniformLineEnds_of_not_mem {s : Text} (h : CodePoint.char '\r' ∉ s) :
    Config.uniformLineEnds s = s := by
  fun_induction Config.uniformLineEnds s with
  | case1 => rfl
  | case2 rest ih => exact absurd List.mem_cons_self h
  | case3 c rest hcr ih =>
    rw [ih fun hr => h (List.mem_cons_of_mem _ hr), if_neg]
    rintro rfl
    exact h List.mem_cons_self

theorem uniformLineEnds_cons {c : CodePoint} {s : Text} (h : isSpace c = false) :
    Config.uniformLineEnds (c :: s) = c :: Config.uniformLineEnds s := by
  have hc : c ≠ .char '\r' := by
    rintro rfl
    cases h
  have hcons := uniformLineEnds_append (s := [c]) (t := s) fun hr =>
    absurd (Option.some.inj hr) hc
  rwa [uniformLineEnds_of_not_mem fun hr => hc (List.mem_singleton.1 hr).symm] at hcons

/-- A line end is not divided in front of what begins with something else. -/
theorem Begins.uniformLineEnds_append {t : Text} (h : Begins t) (s : Text) :
    Config.uniformLineEnds (s ++ t) = Config.uniformLineEnds s ++ Config.uniformLineEnds t := by
  obtain ⟨c, hc, hs⟩ := h
  refine Json.uniformLineEnds_append fun _ hn => ?_
  cases hc.symm.trans hn
  cases hs

theorem Ends.uniformLineEnds_append {s : Text} (h : Ends s) (t : Text) :
    Config.uniformLineEnds (s ++ t) = Config.uniformLineEnds s ++ Config.uniformLineEnds t := by
  obtain ⟨c, hc, hs⟩ := h
  refine Json.uniformLineEnds_append fun hr => ?_
  cases hc.symm.trans hr
  cases hs

theorem IsGap.uniformLineEnds {gap : Text} (h : IsGap gap) :
    IsGap (Config.uniformLineEnds gap) := by
  fun_induction Config.uniformLineEnds gap with
  | case1 => exact h
  | case2 rest ih =>
    refine List.forall_mem_cons.2 ⟨rfl, ih fun c hc => ?_⟩
    exact h c (List.mem_cons_of_mem _ (List.mem_cons_of_mem _ hc))
  | case3 c rest _ ih =>
    refine List.forall_mem_cons.2 ⟨?_, ih fun d hd => h d (List.mem_cons_of_mem _ hd)⟩
    split
    · rfl
    · exact h c List.mem_cons_self

theorem IsNumeral.uniformLineEnds {digits : Text} (h : IsNumeral digits) :
    Config.uniformLineEnds digits = digits :=
  uniformLineEnds_of_not_mem fun hr => absurd (h.2.1 _ hr) (by decide)

theorem WrittenName.uniformLineEnds {name n : Text} (h : WrittenName name n) :
    WrittenName name (Config.uniformLineEnds n) := by
  cases h with
  | mk hs hb ha =>
    rw [uniformLineEnds_cons rfl, Begins.uniformLineEnds_append ⟨_, rfl, rfl⟩,
      uniformLineEnds_of_not_mem hs.not_mem, uniformLineEnds_cons rfl,
      Begins.uniformLineEnds_append ⟨_, rfl, rfl⟩, uniformLineEnds_cons rfl]
    exact .mk hs hb.uniformLineEnds ha.uniformLineEnds

/-- With uniform line ends, the text of a part is still one of that part. -/
theorem Written.uniformLineEnds {part : Part} {t : Text} (h : Written part t) :
    Written part (Config.uniformLineEnds t) := by
  -- Line ends stand in gaps only, each of which can be treated by itself.
  induction h with
  | null => exact .null
  | bool b => cases b <;> exact .bool _
  | natural hd => rw [hd.uniformLineEnds]; exact .natural hd
  | negative hd =>
    rw [uniformLineEnds_cons rfl, hd.uniformLineEnds]
    exact .negative hd
  | str hs =>
    rw [uniformLineEnds_cons rfl, Begins.uniformLineEnds_append ⟨_, rfl, rfl⟩,
      uniformLineEnds_of_not_mem hs.not_mem]
    exact .str hs
  | emptyArr hg =>
    rw [uniformLineEnds_cons rfl, Begins.uniformLineEnds_append ⟨_, rfl, rfl⟩]
    exact .emptyArr hg.uniformLineEnds
  | emptyObj hg =>
    rw [uniformLineEnds_cons rfl, Begins.uniformLineEnds_append ⟨_, rfl, rfl⟩]
    exact .emptyObj hg.uniformLineEnds
  | arr hg ht ih =>
    rw [uniformLineEnds_cons rfl, ht.begins.uniformLineEnds_append]
    exact .arr hg.uniformLineEnds ih
  | obj hnames hg ht ih =>
    rw [uniformLineEnds_cons rfl, ht.begins.uniformLineEnds_append]
    exact .obj hnames hg.uniformLineEnds ih
  | lastItem ht hg ih =>
    rw [ht.ends.uniformLineEnds_append, Begins.uniformLineEnds_append ⟨_, rfl, rfl⟩]
    exact .lastItem ih hg.uniformLineEnds
  | item ht hb ha hu iht ihu =>
    rw [ht.ends.uniformLineEnds_append, Begins.uniformLineEnds_append ⟨_, rfl, rfl⟩,
      uniformLineEnds_cons rfl, hu.begins.uniformLineEnds_append]
    exact .item iht hb.uniformLineEnds ha.uniformLineEnds ihu
  | lastMember hn ht hg ih =>
    rw [(ht.begins.append _).uniformLineEnds_append, ht.ends.uniformLineEnds_append,
      Begins.uniformLineEnds_append ⟨_, rfl, rfl⟩]
    exact .lastMember hn.uniformLineEnds ih hg.uniformLineEnds
  | member hn ht hb ha hu iht ihu =>
    rw [(ht.begins.append _).uniformLineEnds_append, ht.ends.uniformLineEnds_append,
      Begins.uniformLineEnds_append ⟨_, rfl, rfl⟩, uniformLineEnds_cons rfl,
      hu.begins.uniformLineEnds_append]
    exact .member hn.uniformLineEnds iht hb.uniformLineEnds ha.uniformLineEnds ihu

/-- With uniform line ends, a text of a value is still one of that value. -/
theorem IsTextOf.uniformLineEnds {j : Json} {s : Text} (h : IsTextOf j s) :
    IsTextOf j (Config.uniformLineEnds s) := by
  obtain ⟨before, t, after, hb, ht, ha, rfl⟩ := h
  refine ⟨_, _, _, hb.uniformLineEnds, ht.uniformLineEnds, ha.uniformLineEnds, ?_⟩
  rw [(ht.begins.append _).uniformLineEnds_append, ht.ends.uniformLineEnds_append]

end KeyAudit.Json
