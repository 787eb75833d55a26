import KeyAudit.Text.Basic

/-!
# Cutting a text into pieces

* `splitOn` cuts a text at every occurrence of a separator; there is one piece
  more than there are separators, and pieces may be empty;
* `breakLines` cuts a text at its line ends, of which there are many kinds, and
  sees no line after the last line end;
* `takeUntil` and `dropUntil` cut a text where a code point first occurs.
-/

namespace KeyAudit.Text

/-- Puts a code point in front of the first of some pieces. -/
def pushFirst (c : CodePoint) : List Text → List Text
  | [] => [[c]]
  | piece :: pieces => (c :: piece) :: pieces

/-- The pieces between the occurrences of a separator. -/
def splitOn (separator : CodePoint) (s : Text) : List Text :=
  s.foldr (fun c pieces => if c = separator then [] :: pieces else pushFirst c pieces) [[]]

/-- Texts are cut like any other lists. -/
theorem splitOn_eq (separator : CodePoint) (s : Text) :
    splitOn separator s = List.splitOn separator s := by
  have hpush : ∀ c pieces, pieces ≠ [] → pushFirst c pieces = pieces.modifyHead (c :: ·) := by
    intro c pieces h
    cases pieces with
    | nil => exact absurd rfl h
    | cons piece pieces => rfl
  induction s with
  | nil => rfl
  | cons c s ih =>
    rw [List.splitOn_cons_eq_if_modifyHead, ← ih, ← hpush]
    · simp only [beq_iff_eq]
      rfl
    · rw [ih]
      exact List.splitOn_ne_nil separator s

/-- There is no separator within a piece. -/
theorem not_mem_of_mem_splitOn {separator : CodePoint} {s piece : Text}
    (h : piece ∈ splitOn separator s) : separator ∉ piece := by
  rw [splitOn_eq] at h
  induction s generalizing piece with
  | nil =>
    rw [List.mem_singleton.1 h]
    exact List.not_mem_nil
  | cons c s ih =>
    rw [List.splitOn_cons_eq_if_modifyHead] at h
    split at h
    · rcases List.mem_cons.1 h with rfl | h
      · exact List.not_mem_nil
      · exact ih h
    · -- The code point goes to the first piece, which has been one before.
      case isFalse hc =>
        obtain ⟨first, rest, hs⟩ := List.exists_cons_of_ne_nil (List.splitOn_ne_nil separator s)
        rw [hs] at h ih
        rcases List.mem_cons.1 h with rfl | h
        · exact List.not_mem_cons_of_ne_of_not_mem (fun hs => hc (beq_iff_eq.2 hs.symm))
            (ih List.mem_cons_self)
        · exact ih (List.mem_cons_of_mem _ h)

/-- The pieces give the text when they are joined again. -/
theorem join_splitOn (separator : CodePoint) (s : Text) :
    join [separator] (splitOn separator s) = s := by
  rw [splitOn_eq]
  exact List.intercalate_splitOn separator

theorem infix_of_mem_splitOn {separator : CodePoint} {s piece : Text}
    (h : piece ∈ splitOn separator s) : piece <:+: s :=
  join_splitOn separator s ▸ infix_join_of_mem h

/-- A half is in one of the pieces, if it does not separate them. -/
theorem any_holdsHalf_splitOn {separator : CodePoint} (h : separator.isHalf = false) (s : Text) :
    (splitOn separator s).any holdsHalf = holdsHalf s := by
  have hseparator : holdsHalf [separator] = false := by rw [holdsHalf_cons, h]; rfl
  rw [← holdsHalf_join hseparator, join_splitOn]

/-- The text up to the first occurrence of a code point. -/
def takeUntil (stop : CodePoint) (s : Text) : Text :=
  s.takeWhile fun c => c ≠ stop

/-- The text from the first occurrence of a code point on. -/
def dropUntil (stop : CodePoint) (s : Text) : Text :=
  s.dropWhile fun c => c ≠ stop

/-- Whether a code point ends a line. -/
def isLineEnd (c : CodePoint) : Bool :=
  let n := c.toNat
  (0xA ≤ n && n ≤ 0xD) || (0x1C ≤ n && n ≤ 0x1E) || n == 0x85 || n == 0x2028 || n == 0x2029

/-- The lines of a text, the first of which starts with `line` reversed. -/
def breakLinesFrom (line : Text) : Text → List Text
  | [] => if line.isEmpty then [] else [line.reverse]
  | .char '\r' :: .char '\n' :: rest => line.reverse :: breakLinesFrom [] rest
  | c :: rest =>
    if isLineEnd c then line.reverse :: breakLinesFrom [] rest else breakLinesFrom (c :: line) rest

/-- The lines of a text without their ends; a carriage return and a line feed
    together are one line end. -/
def breakLines (s : Text) : List Text :=
  breakLinesFrom [] s

/-- No half ends a line. -/
theorem isHalf_of_isLineEnd {c : CodePoint} (h : isLineEnd c = true) : c.isHalf = false := by
  cases c with
  | char c => rfl
  | half half =>
    have hle : 0xD800 ≤ (CodePoint.half half).toNat := half.isHalf.1
    simp only [isLineEnd, Bool.or_eq_true, Bool.and_eq_true, decide_eq_true_eq, beq_iff_eq] at h
    omega

/-- A half is in one of the lines. -/
theorem any_holdsHalf_breakLines (s : Text) : (breakLines s).any holdsHalf = holdsHalf s := by
  have h : ∀ line, (breakLinesFrom line s).any holdsHalf = (holdsHalf line || holdsHalf s) := by
    intro line
    fun_induction breakLinesFrom line s with
    | case1 line hl => rw [List.isEmpty_iff.1 hl]; rfl
    | case2 line hl => simp [holdsHalf]
    | case3 line rest ih =>
      rw [List.any_cons, ih, holdsHalf_reverse]
      rfl
    | case4 line c rest hc hend ih =>
      rw [List.any_cons, ih, holdsHalf_reverse, holdsHalf_cons, isHalf_of_isLineEnd hend]
      rfl
    | case5 line c rest hc hend ih =>
      rw [ih, holdsHalf_cons, holdsHalf_cons, Bool.or_assoc, Bool.or_left_comm]
  exact h []

end KeyAudit.Text
