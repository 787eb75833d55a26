import Mathlib
import KeyAudit.Json.Writer
import KeyAudit.Proofs.Json.Reading

/-!
# What the writer writes

The writer writes a text of the value that it is given, in every layout (`isTextOf_write`), as
long as the value has no floating point number and the names of the members of an object differ
(`Regular`). A string is written with an escape for each code point that needs one and with all
others as they are (`writtenChars_escaped`), a number with its digits (`isNumeral_toDigits`), and
between items and members there is blank space at most.

So what has been written is read as the value that it has been written for. It can be encoded if
the texts in the value can (`holdsHalf_write`).
-/

namespace KeyAudit.Json

/-- A value without floating point numbers, whose objects have members of different names, and
    all texts of which satisfy `p`. -/
inductive Regular (p : Text → Prop) : Json → Prop
  | null : Regular p .null
  | bool (b : Bool) : Regular p (.bool b)
  | int (n : Int) : Regular p (.int n)
  | str {s : Text} : p s → Regular p (.str s)
  | arr {js : List Json} : (∀ j ∈ js, Regular p j) → Regular p (.arr js)
  | obj {ms : List (Text × Json)} : (ms.map Prod.fst).Nodup → (∀ m ∈ ms, p m.1) →
      (∀ m ∈ ms, Regular p m.2) → Regular p (.obj ms)

/-! ## Strings -/

/-- The escape of a control character. -/
theorem hexUnit?_control {n : Nat} (h : n < 0x20) :
    ∃ a b c d, "\\u" ++ Text.hexDigits 4 n = unitEscape a b c d ∧ hexUnit? a b c d = some n := by
  refine ⟨_, _, _, _, rfl, ?_⟩
  revert n
  decide

theorem isHalf_of_control {c : CodePoint} (h : c.toNat < 0x20) : c.isHalf = false := by
  cases c with
  | char d => rfl
  | half half =>
    have hle : 0xD800 ≤ (CodePoint.half half).toNat := half.isHalf.1
    omega

/-- What is written for a code point is one of the ways to write it. -/
theorem writtenChars_escaped_append (c : CodePoint) {v s : Text} (h : WrittenChars v s) :
    WrittenChars (c :: v) (escaped c ++ s) := by
  have hescape : ∀ e, escaped? e = some c → WrittenChars (c :: v) ([.char '\\', e] ++ s) :=
    fun e he => .escape he h
  unfold escaped
  split_ifs with hquote hslash h₃ h₄ h₅ h₆ h₇ hcontrol
  · exact hescape _ (by rw [hquote]; rfl)
  · exact hescape _ (by rw [hslash]; rfl)
  · exact hescape _ (by rw [h₃]; rfl)
  · exact hescape _ (by rw [h₄]; rfl)
  · exact hescape _ (by rw [h₅]; rfl)
  · exact hescape _ (by rw [h₆]; rfl)
  · exact hescape _ (by rw [h₇]; rfl)
  · obtain ⟨w, x, y, z, hunit, hvalue⟩ := hexUnit?_control hcontrol
    obtain ⟨d, rfl⟩ : ∃ d, c = .char d := by
      cases c with
      | char d => exact ⟨d, rfl⟩
      | half half => cases isHalf_of_control hcontrol
    have hnone : Surrogate.ofUnit? d.toNat = none := dif_neg fun hd => by
      have hlt : d.toNat < 0x20 := hcontrol
      omega
    rw [hunit]
    -- A control character is no half, so what follows cannot complete it to a pair.
    have hwritten := WrittenChars.unit hvalue hnone h
    rwa [CodePoint.toNat, Char.ofNat_toNat] at hwritten
  · refine .plain ?_ h
    simp only [isPlain, Bool.and_eq_true, decide_eq_true_eq, ne_eq]
    exact ⟨⟨Nat.le_of_not_lt hcontrol, hquote⟩, hslash⟩

theorem writtenChars_escaped (s : Text) : WrittenChars s (s.flatMap escaped) := by
  induction s with
  | nil => exact .nil
  | cons c s ih => exact writtenChars_escaped_append c ih

/-- No escape holds a half. -/
theorem holdsHalf_escaped (s : Text) : Text.holdsHalf (s.flatMap escaped) = Text.holdsHalf s := by
  have hcontrol : ∀ n < 0x20, Text.holdsHalf ("\\u" ++ Text.hexDigits 4 n) = false := by decide
  have hpoint : ∀ c, Text.holdsHalf (escaped c) = c.isHalf := by
    intro c
    unfold escaped
    split_ifs with h₁ h₂ h₃ h₄ h₅ h₆ h₇ h₈
    · rw [h₁]; rfl
    · rw [h₂]; rfl
    · rw [h₃]; rfl
    · rw [h₄]; rfl
    · rw [h₅]; rfl
    · rw [h₆]; rfl
    · rw [h₇]; rfl
    · rw [hcontrol _ h₈, isHalf_of_control h₈]
    · exact Bool.or_false _
  induction s with
  | nil => rfl
  | cons c s ih => rw [List.flatMap_cons, Text.holdsHalf_append, hpoint, ih, Text.holdsHalf_cons]

/-! ## Numbers -/

theorem digitsValue_toDigits (n : Nat) :
    digitsValue (Text.ofChars (Nat.toDigits 10 n)) = n := by
  rw [digitsValue, Text.ofChars, List.foldl_map]
  exact Nat.ofDigitChars_ten_toDigits

/-- Only the number zero is written with a zero in front. -/
theorem head?_toDigits {n : Nat} (h : 0 < n) : (Nat.toDigits 10 n).head? ≠ some '0' := by
  induction n using Nat.strong_induction_on with
  | _ n ih =>
    rw [Nat.toDigits_eq_if (by decide)]
    split
    · case isTrue hlt =>
        interval_cases n <;> decide
    · case isFalse hlt =>
        rw [List.head?_append_of_ne_nil _ Nat.toDigits_ne_nil]
        exact ih (n / 10) (by omega) (by omega)

theorem isNumeral_toDigits (n : Nat) : IsNumeral (Text.ofChars (Nat.toDigits 10 n)) := by
  refine ⟨?_, fun c hc => ?_, fun hzero => ?_⟩
  · simp [Text.ofChars]
  · obtain ⟨d, hd, rfl⟩ := List.mem_map.1 hc
    have hdigit := Nat.isDigit_of_mem_toDigits (by decide) (by decide) hd
    simp only [Char.isDigit, Bool.and_eq_true, decide_eq_true_eq] at hdigit
    simp only [isDigit, CodePoint.isBetween, Bool.and_eq_true, decide_eq_true_eq]
    exact hdigit
  · rcases Nat.eq_zero_or_pos n with rfl | hn
    · rfl
    · rw [Text.ofChars, List.head?_map, Option.map_eq_some_iff] at hzero
      obtain ⟨d, hd, hchar⟩ := hzero
      rw [CodePoint.char.inj hchar] at hd
      exact absurd hd (head?_toDigits hn)

theorem written_int (n : Int) : Written (.value (.int n)) (toString n : String) := by
  cases n with
  | ofNat n =>
    have hwritten := Written.natural (isNumeral_toDigits n)
    rw [digitsValue_toDigits] at hwritten
    rw [Text.ofString_toString_ofNat]
    exact hwritten
  | negSucc n =>
    have hwritten := Written.negative (isNumeral_toDigits (n + 1))
    rw [digitsValue_toDigits] at hwritten
    rw [Text.ofString_toString_negSucc]
    exact hwritten

/-! ## Values -/

theorem isGap_nil : IsGap [] := fun _ hc => absurd hc List.not_mem_nil

theorem isGap_replicate (n : Nat) : IsGap (List.replicate n (.char ' ')) := fun c hc => by
  rw [List.eq_of_mem_replicate hc]
  rfl

theorem isGap_lineBreak (layout : Layout) (level : Nat) : IsGap (layout.lineBreak level) := by
  cases layout with
  | none => exact isGap_nil
  | some width => exact List.forall_mem_cons.2 ⟨rfl, isGap_replicate _⟩

/-- A separator is a comma and blank space. -/
theorem exists_separator (layout : Layout) (level : Nat) :
    ∃ gap, IsGap gap ∧ layout.separator level = .char ',' :: gap := by
  cases layout with
  | none => exact ⟨[.char ' '], by decide, rfl⟩
  | some width => exact ⟨_, isGap_lineBreak (some width) level, rfl⟩

variable {layout : Layout} {level : Nat} {gap : Text}

/-- Some items, from the first one up to the closing bracket. -/
theorem written_items {j : Json} {js : List Json} (hgap : IsGap gap)
    (hj : Written (.value j) (write layout level j))
    (hjs : ∀ k ∈ js, Written (.value k) (write layout level k)) :
    Written (.items (j :: js))
      (write layout level j ++ (writeItems layout level js ++ (gap ++ [.char ']']))) := by
  induction js generalizing j with
  | nil => exact .lastItem hj hgap
  | cons k js ih =>
    -- The comma ends this item, and the blank space behind it is in front of the next one.
    obtain ⟨after, hafter, hseparator⟩ := exists_separator layout level
    have hrest := ih (hjs k List.mem_cons_self) fun l hl => hjs l (List.mem_cons_of_mem k hl)
    have hwritten := Written.item hj isGap_nil hafter hrest
    rw [writeItems, hseparator]
    simpa only [List.append_assoc, List.cons_append, List.nil_append] using hwritten

/-- The name of a member, up to its value. -/
theorem writtenName_writeString (name : Text) : WrittenName name (writeString name ++ ": ") := by
  have hname := WrittenName.mk (writtenChars_escaped name) isGap_nil (isGap_replicate 1)
  rw [writeString]
  simpa [Text.ofString, Text.ofChars] using hname

/-- Some members, from the first one up to the closing bracket. -/
theorem written_members {name : Text} {j : Json} {ms : List (Text × Json)} (hgap : IsGap gap)
    (hj : Written (.value j) (write layout level j))
    (hms : ∀ m ∈ ms, Written (.value m.2) (write layout level m.2)) :
    Written (.members ((name, j) :: ms)) ((writeString name ++ ": ") ++ (write layout level j ++
      (writeMembers layout level ms ++ (gap ++ [CodePoint.char '\x7d'])))) := by
  induction ms generalizing name j with
  | nil => exact .lastMember (writtenName_writeString name) hj hgap
  | cons m ms ih =>
    obtain ⟨after, hafter, hseparator⟩ := exists_separator layout level
    obtain ⟨next, k⟩ := m
    have hrest := @ih next k (hms _ List.mem_cons_self) fun l hl =>
      hms l (List.mem_cons_of_mem _ hl)
    have hwritten := Written.member (writtenName_writeString name) hj isGap_nil hafter hrest
    rw [writeMembers, hseparator]
    simpa only [List.append_assoc, List.cons_append, List.nil_append] using hwritten

variable {p : Text → Prop} {j : Json}

theorem written_write (h : Regular p j) (layout : Layout) (level : Nat) :
    Written (.value j) (write layout level j) := by
  induction h generalizing level with
  | null => exact .null
  | bool b => cases b <;> exact .bool _
  | int n => exact written_int n
  | str _ =>
    rw [write, writeString]
    exact .str (writtenChars_escaped _)
  | @arr js hjs ih =>
    cases js with
    | nil => exact .emptyArr isGap_nil
    | cons j js =>
      have hitems := written_items (isGap_lineBreak layout level)
        (ih j List.mem_cons_self (level + 1)) fun k hk =>
          ih k (List.mem_cons_of_mem j hk) (level + 1)
      have hwritten := Written.arr (isGap_lineBreak layout (level + 1)) hitems
      rw [write]
      simpa [Text.ofString, Text.ofChars] using hwritten
  | @obj ms hnames hp hms ih =>
    cases ms with
    | nil => exact .emptyObj isGap_nil
    | cons m ms =>
      obtain ⟨name, j⟩ := m
      have hmembers := @written_members layout (level + 1) _ name j ms
        (isGap_lineBreak layout level) (ih _ List.mem_cons_self (level + 1)) fun k hk =>
          ih k (List.mem_cons_of_mem _ hk) (level + 1)
      have hwritten := Written.obj hnames (isGap_lineBreak layout (level + 1)) hmembers
      rw [write]
      simpa [Text.ofString, Text.ofChars] using hwritten

/-- The writer writes a text of the value that it is given. -/
theorem isTextOf_write (h : Regular p j) (layout : Layout) : IsTextOf j (j.write layout 0) :=
  ⟨[], _, [], isGap_nil, written_write h layout 0, isGap_nil, (List.append_nil _).symm⟩

/-! ## Halves -/

theorem holdsHalf_lineBreak (layout : Layout) (level : Nat) :
    Text.holdsHalf (layout.lineBreak level) = false := by
  cases layout with
  | none => rfl
  | some width => exact Text.holdsHalf_replicate (width * level) ' '

theorem holdsHalf_separator (layout : Layout) (level : Nat) :
    Text.holdsHalf (layout.separator level) = false := by
  cases layout with
  | none => rfl
  | some width =>
    rw [Layout.separator, Text.holdsHalf_append, holdsHalf_lineBreak]
    rfl

theorem holdsHalf_writeString (s : Text) : Text.holdsHalf (writeString s) = Text.holdsHalf s := by
  simp [writeString, holdsHalf_escaped]

theorem holdsHalf_writeItems {js : List Json}
    (h : ∀ j ∈ js, Text.holdsHalf (write layout level j) = false) :
    Text.holdsHalf (writeItems layout level js) = false := by
  induction js with
  | nil => rfl
  | cons j js ih =>
    rw [writeItems, Text.holdsHalf_append, Text.holdsHalf_append, holdsHalf_separator,
      h j List.mem_cons_self, ih fun k hk => h k (List.mem_cons_of_mem j hk)]
    rfl

theorem holdsHalf_writeMembers {ms : List (Text × Json)}
    (hnames : ∀ m ∈ ms, Text.holdsHalf m.1 = false)
    (h : ∀ m ∈ ms, Text.holdsHalf (write layout level m.2) = false) :
    Text.holdsHalf (writeMembers layout level ms) = false := by
  induction ms with
  | nil => rfl
  | cons m ms ih =>
    obtain ⟨name, j⟩ := m
    have hname : Text.holdsHalf name = false := hnames _ List.mem_cons_self
    have hj : Text.holdsHalf (write layout level j) = false := h _ List.mem_cons_self
    have hrest := ih (fun k hk => hnames k (List.mem_cons_of_mem _ hk)) fun k hk =>
      h k (List.mem_cons_of_mem _ hk)
    simp [writeMembers, holdsHalf_separator, holdsHalf_writeString, hname, hj, hrest]

/-- Without a half in the texts of a value there is none in what is written. -/
theorem holdsHalf_write (h : Regular (fun s => Text.holdsHalf s = false) j) (layout : Layout)
    (level : Nat) : Text.holdsHalf (write layout level j) = false := by
  induction h generalizing level with
  | null => rfl
  | bool b => cases b <;> rfl
  | int n => exact Text.holdsHalf_ofString _
  | str hs => exact (holdsHalf_writeString _).trans hs
  | @arr js hjs ih =>
    cases js with
    | nil => rfl
    | cons j js =>
      have hj := ih j List.mem_cons_self (level + 1)
      have hitems := holdsHalf_writeItems fun k hk => ih k (List.mem_cons_of_mem j hk) (level + 1)
      simp [write, holdsHalf_lineBreak, hj, hitems]
  | @obj ms hnodup hnames hms ih =>
    cases ms with
    | nil => rfl
    | cons m ms =>
      obtain ⟨name, j⟩ := m
      have hname : Text.holdsHalf name = false := hnames _ List.mem_cons_self
      have hj := ih _ List.mem_cons_self (level + 1)
      have hmembers := holdsHalf_writeMembers (fun k hk => hnames k (List.mem_cons_of_mem _ hk))
        fun k hk => ih k (List.mem_cons_of_mem _ hk) (level + 1)
      simp [write, holdsHalf_lineBreak, holdsHalf_writeString, hname, hj, hmembers]

end KeyAudit.Json
