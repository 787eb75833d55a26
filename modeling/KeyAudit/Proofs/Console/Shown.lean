import KeyAudit.Proofs.Console.Markup

/-!
# What is shown of an escaped text

Tags in an escaped text are shown as they are: escaping puts backslashes in front of them,
and rendering takes just these away again. But rendering takes a backslash away from *every*
bracket between the tags that it stands in front of, and escaping adds none to a bracket that
opens no tag. So what is shown of a text is the text without these backslashes (`unslashed`).

* `unslashed_eq_self_iff`: a text is shown as it is unless it has a backslash in front of a
  bracket that opens no tag;
* `flatMap_shown_piecesFrom`: what the pieces of a text show whose tags are plain;
* `render_marked`: what is shown of an escaped text with a mark in front.
-/

namespace KeyAudit

namespace Markup

variable {s t u rest inside after : Text} {n : Nat} {c : CodePoint}

/-! ## Backslashes in front of brackets -/

/-- A text without the backslashes in front of brackets, but for those that are kept, given
    what follows the bracket. -/
def dropSlashes (keeps : Text → Bool) : Text → Text
  | [] => []
  | .char '\\' :: .char '[' :: rest =>
    if keeps rest then '\\' :: '[' :: dropSlashes keeps rest else '[' :: dropSlashes keeps rest
  | c :: rest => c :: dropSlashes keeps rest

/-- What is shown of a text that is escaped: a backslash is kept in front of a tag only. -/
def unslashed (s : Text) : Text := dropSlashes (fun rest => (tag? rest).isSome) s

/-- A text that is not shown as it is: there is a backslash in front of a bracket that opens
    no tag. -/
def LosesSlash (s : Text) : Prop :=
  ∃ before after, s = before ++ .char '\\' :: .char '[' :: after ∧ tag? after = none

/-- Between tags no backslash is kept. -/
theorem showBrackets_eq (s : Text) : showBrackets s = dropSlashes (fun _ => false) s := by
  fun_induction showBrackets s with
  | case1 => rfl
  | case2 rest ih => rw [ih]; rfl
  | case3 c rest h ih => rw [dropSlashes, ih]; exact h

section

variable {keeps : Text → Bool}

theorem dropSlashes_cons (h : c = .char '\\' → rest.head? ≠ some (.char '[')) :
    dropSlashes keeps (c :: rest) = c :: dropSlashes keeps rest := by
  rw [dropSlashes]
  rintro after rfl rfl
  exact h rfl rfl

theorem dropSlashes_sublist (keeps : Text → Bool) (s : Text) :
    (dropSlashes keeps s).Sublist s := by
  fun_induction dropSlashes keeps s with
  | case1 => exact .slnil
  | case2 rest h ih => exact (ih.cons_cons _).cons_cons _
  | case3 rest h ih => exact (ih.cons_cons _).cons _
  | case4 c rest h ih => exact ih.cons_cons _

theorem holdsHalf_dropSlashes (keeps : Text → Bool) (s : Text) :
    Text.holdsHalf (dropSlashes keeps s) = Text.holdsHalf s := by
  fun_induction dropSlashes keeps s with
  | case1 => rfl
  | case2 rest h ih => exact ih
  | case3 rest h ih => exact ih
  | case4 c rest h ih => exact congrArg (c.isHalf || ·) ih

/-- The end of a text meets what the text meets. -/
theorem meets_tail {p : Prop} (h : (c :: s).getLast? = some (.char '\\') → p)
    (hs : s.getLast? = some (.char '\\')) : p :=
  h (by rw [List.getLast?_cons, hs]; rfl)

theorem dropSlashes_append (hkeeps : ∀ rest, keeps (rest ++ t) = keeps rest)
    (h : s.getLast? = some (.char '\\') → t.head? ≠ some (.char '[')) :
    dropSlashes keeps (s ++ t) = dropSlashes keeps s ++ dropSlashes keeps t := by
  fun_induction dropSlashes keeps s with
  | case1 => rfl
  | case2 rest hrest ih =>
    rw [List.cons_append, List.cons_append, dropSlashes, if_pos ((hkeeps rest).trans hrest),
      ih (meets_tail (meets_tail h))]
    rfl
  | case3 rest hrest ih =>
    rw [List.cons_append, List.cons_append, dropSlashes, hkeeps, if_neg hrest,
      ih (meets_tail (meets_tail h))]
    rfl
  | case4 c rest hrest ih =>
    rw [List.cons_append, dropSlashes_cons, ih (meets_tail h), List.cons_append]
    rintro rfl
    cases rest with
    | nil => exact h rfl
    | cons d rest => exact fun hd => hrest rest rfl (by rw [Option.some.inj hd])

/-- A text without brackets is kept, if it does not meet one. -/
theorem dropSlashes_append_of_not_mem (hs : CodePoint.char '[' ∉ s)
    (h : s.getLast? = some (.char '\\') → t.head? ≠ some (.char '[')) :
    dropSlashes keeps (s ++ t) = s ++ dropSlashes keeps t := by
  induction s with
  | nil => rfl
  | cons c s ih =>
    rw [List.mem_cons, not_or] at hs
    rw [List.cons_append, dropSlashes_cons, ih hs.2 (meets_tail h), List.cons_append]
    rintro rfl
    cases s with
    | nil => exact h rfl
    | cons d s => exact fun hd => hs.2 (by rw [← Option.some.inj hd]; exact List.mem_cons_self)

theorem dropSlashes_of_not_mem (hs : CodePoint.char '[' ∉ s) : dropSlashes keeps s = s := by
  have happend : dropSlashes keeps (s ++ []) = s ++ dropSlashes keeps [] :=
    dropSlashes_append_of_not_mem hs fun _ => by simp
  rwa [List.append_nil, dropSlashes, List.append_nil] at happend

theorem slashes_append_slash (n : Nat) (s : Text) :
    slashes n ++ .char '\\' :: s = slashes (n + 1) ++ s := by
  rw [slashes, slashes, List.replicate_succ', List.append_assoc]
  rfl

theorem bracket_not_mem_slashes (n : Nat) : CodePoint.char '[' ∉ slashes n := fun h =>
  absurd (List.eq_of_mem_replicate h) (by decide)

/-- A bracket takes the last of the backslashes in front of it, unless that is kept. -/
theorem dropSlashes_slashes_bracket (n : Nat) (rest : Text) :
    dropSlashes keeps (slashes n ++ .char '[' :: rest) =
      slashes (if keeps rest then n else n - 1) ++ .char '[' :: dropSlashes keeps rest := by
  cases n with
  | zero => simp [slashes, dropSlashes_cons]
  | succ n =>
    have hlast : dropSlashes keeps (.char '\\' :: .char '[' :: rest) =
        slashes (if keeps rest then 1 else 0) ++ .char '[' :: dropSlashes keeps rest := by
      rw [dropSlashes]
      split <;> rfl
    rw [← slashes_append_slash, dropSlashes_append_of_not_mem (bracket_not_mem_slashes n)
      fun _ => by simp, hlast]
    split
    · exact slashes_append_slash n _
    · rfl

end

/-- A backslash is lost further on unless it is lost at once. -/
theorem losesSlash_cons (h : ∀ after, c = .char '\\' → rest = .char '[' :: after →
    tag? after ≠ none) : LosesSlash (c :: rest) ↔ LosesSlash rest := by
  constructor
  · rintro ⟨before, after, hs, hnone⟩
    cases before with
    | nil =>
      obtain ⟨rfl, rfl⟩ := List.cons.inj hs
      exact absurd hnone (h after rfl rfl)
    | cons d before => exact ⟨before, after, (List.cons.inj hs).2, hnone⟩
  · rintro ⟨before, after, rfl, hnone⟩
    exact ⟨c :: before, after, rfl, hnone⟩

theorem unslashed_eq_self_iff (s : Text) : unslashed s = s ↔ ¬LosesSlash s := by
  rw [unslashed]
  fun_induction dropSlashes _ s with
  | case1 => exact iff_of_true rfl fun ⟨before, after, hs, _⟩ => by cases before <;> cases hs
  | case2 rest h ih =>
    rw [losesSlash_cons, losesSlash_cons, ← ih]
    · simp
    · intro _ hs
      cases hs
    · rintro after - ha hnone
      cases ha
      rw [hnone] at h
      cases h
  | case3 rest h ih =>
    refine iff_of_false (fun hs => by cases hs) fun hnot => hnot ⟨[], rest, rfl, ?_⟩
    exact Option.not_isSome_iff_eq_none.1 h
  | case4 c rest h ih =>
    rw [losesSlash_cons fun after hc hafter => absurd hafter (h after hc), ← ih]
    simp

/-! ## Tags -/

theorem bracket_not_mem_of_closeTag (h : closeTag s = some (inside, after)) :
    CodePoint.char '[' ∉ inside := by
  induction s generalizing inside with
  | nil => cases h
  | cons c rest ih =>
    rw [closeTag] at h
    split at h
    · cases h
      exact List.not_mem_nil
    · split at h
      · cases h
      · case isFalse hb =>
          obtain ⟨⟨i, a⟩, hi, he⟩ := Option.map_eq_some_iff.1 h
          cases he
          exact List.not_mem_cons_of_ne_of_not_mem (Ne.symm hb) (ih hi)

theorem bracket_not_mem_of_tag? (h : tag? s = some (inside, after)) :
    CodePoint.char '[' ∉ inside := by
  cases s with
  | nil => cases h
  | cons c rest =>
    rw [tag?] at h
    split at h
    · case isTrue hc =>
        obtain ⟨⟨i, a⟩, hi, he⟩ := Option.map_eq_some_iff.1 h
        cases he
        refine List.not_mem_cons_of_ne_of_not_mem ?_ (bracket_not_mem_of_closeTag hi)
        rintro rfl
        cases hc
    · cases h

/-- What closes no tag makes none of what stands in front of it. -/
theorem isSome_tag?_append (hu : EndsTags u) (s : Text) :
    (tag? (s ++ u)).isSome = (tag? s).isSome := by
  cases h : tag? s with
  | none => rw [tag?_append_eq_none hu h]
  | some parts =>
    obtain ⟨rfl, htag⟩ := tag?_eq_some h
    rw [List.append_assoc, List.cons_append, htag]
    rfl

/-! ## What is shown -/

/-- In front of a tag, and within it, nothing is lost. -/
theorem unslashed_tag (h : tag? rest = some (inside, after)) (n : Nat) :
    unslashed (slashes n ++ .char '[' :: rest) =
      slashes n ++ (tagText inside ++ unslashed after) := by
  have hinside : CodePoint.char '[' ∉ inside ++ [CodePoint.char ']'] := by
    simpa using bracket_not_mem_of_tag? h
  have hrest : rest = (inside ++ [CodePoint.char ']']) ++ after := by
    rw [(tag?_eq_some h).1, List.append_assoc]
    rfl
  have hshown : unslashed rest = (inside ++ [CodePoint.char ']']) ++ unslashed after := by
    rw [unslashed, hrest]
    exact dropSlashes_append_of_not_mem hinside (by simp)
  rw [unslashed, dropSlashes_slashes_bracket, h]
  change slashes n ++ .char '[' :: unslashed rest = _
  rw [hshown]
  simp [tagText, Text.ofString, Text.ofChars]

/-- The text in front of a piece does not end in a backslash. -/
theorem showBrackets_reverse_append {text : Text} (h : text.head? ≠ some (.char '\\'))
    (s : Text) : showBrackets (text.reverse ++ s) = showBrackets text.reverse ++ showBrackets s := by
  rw [showBrackets_eq, showBrackets_eq, showBrackets_eq]
  exact dropSlashes_append (fun _ => rfl) fun hlast =>
    absurd (List.getLast?_reverse ▸ hlast) h

/-- What the pieces of a text show whose tags are plain. The text in front does not end in a
    backslash, or that might be lost. -/
theorem flatMap_shown_piecesFrom {text : Text} (h : text.head? ≠ some (.char '\\')) (n : Nat)
    (s : Text) : (piecesFrom text n s).flatMap Piece.shown =
      showBrackets text.reverse ++ unslashed (slashes n ++ s) := by
  induction n, s using pieces_induction generalizing text with
  | nil n =>
    have hslashes : dropSlashes (fun _ => false) (slashes n) = unslashed (slashes n ++ []) := by
      rw [unslashed, List.append_nil, dropSlashes_of_not_mem (bracket_not_mem_slashes n),
        dropSlashes_of_not_mem (bracket_not_mem_slashes n)]
    rw [piecesFrom_nil, List.flatMap_singleton, Piece.shown, showBrackets_reverse_append h,
      showBrackets_eq (slashes n), hslashes]
  | slash n rest ih => rw [piecesFrom_slash, ih h, ← slashes_append_slash]
  | tag n rest inside after htag ih =>
    rw [piecesFrom_tag htag, List.flatMap_cons, List.flatMap_cons, ih (by simp),
      unslashed_tag htag]
    simp [Piece.shown, slashes, showBrackets]
  | bracket n rest htag ih =>
    have hbracket : showBrackets (slashes n ++ [.char '[']) = slashes (n - 1) ++ [.char '['] := by
      rw [showBrackets_eq, dropSlashes_slashes_bracket]
      rfl
    have hrest : unslashed (slashes n ++ .char '[' :: rest) =
        slashes (n - 1) ++ .char '[' :: unslashed rest := by
      rw [unslashed, dropSlashes_slashes_bracket, htag]
      rfl
    rw [piecesFrom_bracket htag, ih (by simp), hrest, List.reverse_cons, List.reverse_append,
      reverse_slashes, List.append_assoc, showBrackets_reverse_append h, hbracket]
    simp [slashes]
  | other n c rest hs hb ih =>
    have hnot : CodePoint.char '[' ∉ slashes n ++ [c] := by
      simpa using ⟨bracket_not_mem_slashes n, Ne.symm hb⟩
    have hrest : unslashed (slashes n ++ c :: rest) = (slashes n ++ [c]) ++ unslashed rest := by
      rw [unslashed, List.append_cons]
      exact dropSlashes_append_of_not_mem hnot (by simpa using fun hc => absurd hc hs)
    rw [piecesFrom_other hs hb, ih (by simpa using hs), hrest, List.reverse_cons,
      List.reverse_append, reverse_slashes, List.append_assoc, showBrackets_reverse_append h,
      showBrackets_eq (slashes n ++ [c]), dropSlashes_of_not_mem hnot]
    simp [slashes]

/-- An escaped text is shown like its pieces with plain tags. -/
theorem renderPieces_escapeFrom (opened : List Text) (text : Text) (n : Nat) (s : Text) :
    renderPieces opened (piecesFrom text 0 (escapeFrom n s)) =
      .ok ((piecesFrom text n s).flatMap Piece.shown) := by
  obtain ⟨ps, last, m, hpieces, hescaped⟩ := piecesFrom_escapeFrom ⟨rfl, rfl⟩ text n s (u := [])
  rw [List.append_nil] at hescaped
  rw [hescaped, hpieces, piecesFrom_nil, renderPieces_plain_append, renderPieces, renderPieces,
    List.flatMap_append]
  rfl

theorem getLast?_escapeFrom (n : Nat) (s : Text) :
    (escapeFrom n s).getLast? = (slashes n ++ s).getLast? := by
  induction n, s using pieces_induction with
  | nil n => rw [escapeFrom_nil, List.append_nil]
  | slash n rest ih => rw [escapeFrom_slash, ih, slashes_append_slash]
  | tag n rest inside after h ih =>
    rw [escapeFrom_tag h, (tag?_eq_some h).1]
    simp [List.getLast?_append, List.getLast?_cons, ih, slashes]
  | bracket n rest h ih =>
    rw [escapeFrom_bracket h]
    simp [List.getLast?_append, List.getLast?_cons, ih, slashes]
  | other n c rest hs hb ih =>
    rw [escapeFrom_other hs hb]
    simp [List.getLast?_append, List.getLast?_cons, ih, slashes]

/-- A backslash is added only to a text that ends in one. -/
theorem escape_eq (h : s.getLast? ≠ some (.char '\\')) : escape s = escapeFrom 0 s := by
  have hlast : (escapeFrom 0 s).reverse.head? ≠ some (.char '\\') := by
    rw [List.head?_reverse, getLast?_escapeFrom]
    exact h
  have hends : endsWithBackslash (escapeFrom 0 s) = false := by
    rw [endsWithBackslash]
    split
    · rfl
    · case h_2 hrev => exact absurd (congrArg List.head? hrev) hlast
    · rfl
  rw [escape]
  exact if_neg (by rw [pieces, ← escapeFrom, hends]; decide)

/-- A mark in a style, and an escaped text behind it. -/
theorem render_marked {style : Text} (hstyle : IsStyle style) (hs : c ≠ .char '\\')
    (hb : c ≠ .char '[') (hlast : s.getLast? ≠ some (.char '\\')) :
    render (styled style [c] ++ " " ++ escape s) = .ok (c :: .char ' ' :: unslashed s) := by
  have hmarkup : styled style [c] ++ " " ++ escape s =
      .char '[' :: (style ++ .char ']' :: c :: .char '[' ::
        (.char '/' :: style ++ .char ']' :: .char ' ' :: escapeFrom 0 s)) := by
    rw [escape_eq hlast]
    simp [styled, tagText, Text.ofString, Text.ofChars]
  have hon := (tag?_eq_some hstyle.on).2
  have hoff := (tag?_eq_some hstyle.off).2
  have hmessage : renderPieces [] (piecesFrom [] 0 (.char ' ' :: escapeFrom 0 s)) =
      .ok (.char ' ' :: unslashed s) := by
    rw [piecesFrom_other (by decide) (by decide), renderPieces_escapeFrom,
      flatMap_shown_piecesFrom (by simp [slashes])]
    rfl
  have hmark : showBrackets [c] = [c] := by
    rw [showBrackets_eq]
    exact dropSlashes_of_not_mem (by simpa using hb.symm)
  have hrest : renderPieces [styleName style] (piecesFrom [] 0 (c :: .char '[' ::
      (.char '/' :: style ++ .char ']' :: .char ' ' :: escapeFrom 0 s))) =
        .ok (c :: .char ' ' :: unslashed s) := by
    rw [piecesFrom_other hs hb, piecesFrom_tag (hoff _), renderPieces, renderPieces,
      if_neg (by decide), hstyle.switch_off]
    change Except.bind (Except.bind (renderPieces [] _) _) _ = _
    rw [hmessage]
    exact congrArg (fun mark => Except.ok (mark ++ _)) hmark
  rw [hmarkup, render, if_pos (by rfl), pieces, piecesFrom_tag (hon _), renderPieces,
    renderPieces, if_neg (by decide), hstyle.switch_on]
  change Except.bind (Except.bind (renderPieces [styleName style] _) _) _ = _
  rw [hrest]
  rfl

end Markup

end KeyAudit
