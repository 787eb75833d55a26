import KeyAudit.Console.Display

/-!
# Escaped texts

`Markup.escape` puts an odd number of backslashes in front of every tag, and so none of
them is one any more. Reading an escaped text again finds the pieces of the text itself,
with its tags made plain (`piecesFrom_escapeFrom`), whatever comes after it, if only that
does not go on with a tag that has begun. Plain tags switch no style and cannot fail
(`renderPieces_plain_append`), so whatever is put around an escaped text is rendered as if
the text were not there (`render_styled`). Nothing but backslashes is lost: what is shown
has a half that stands alone just if the text has one.
-/

namespace KeyAudit.Markup

/-! ## Tags -/

/-- A tag that is not closed in a text, nor in what follows it, is not closed in both. -/
theorem closeTag_append_eq_none {s t : Text} (hs : closeTag s = none) (ht : closeTag t = none) :
    closeTag (s ++ t) = none := by
  induction s with
  | nil => exact ht
  | cons c rest ih =>
    rw [closeTag] at hs
    rw [List.cons_append, closeTag]
    split at hs
    · cases hs
    · case isFalse hc =>
        rw [if_neg hc]
        split
        · rfl
        · case isFalse hb =>
            rw [if_neg hb, Option.map_eq_none_iff] at hs
            rw [ih hs, Option.map_none]

/-- A tag that is closed is closed whatever follows it. -/
theorem closeTag_eq_some {s inside after : Text} (h : closeTag s = some (inside, after)) :
    s = inside ++ .char ']' :: after ∧
      ∀ rest, closeTag (inside ++ .char ']' :: rest) = some (inside, rest) := by
  induction s generalizing inside with
  | nil => cases h
  | cons c rest ih =>
    rw [closeTag] at h
    split at h
    · case isTrue hc =>
        cases h
        exact ⟨by rw [hc]; rfl, fun rest => rfl⟩
    · case isFalse hc =>
        split at h
        · cases h
        · case isFalse hb =>
            obtain ⟨⟨i, a⟩, hi, he⟩ := Option.map_eq_some_iff.1 h
            cases he
            obtain ⟨rfl, hclose⟩ := ih hi
            refine ⟨rfl, fun rest => ?_⟩
            rw [List.cons_append, closeTag, if_neg hc, if_neg hb, hclose]
            rfl

theorem tag?_eq_some {s inside after : Text} (h : tag? s = some (inside, after)) :
    s = inside ++ .char ']' :: after ∧
      ∀ rest, tag? (inside ++ .char ']' :: rest) = some (inside, rest) := by
  cases s with
  | nil => cases h
  | cons c rest =>
    rw [tag?] at h
    split at h
    · case isTrue hc =>
        obtain ⟨⟨i, a⟩, hi, he⟩ := Option.map_eq_some_iff.1 h
        cases he
        obtain ⟨rfl, hclose⟩ := closeTag_eq_some hi
        refine ⟨rfl, fun rest => ?_⟩
        rw [List.cons_append, tag?, if_pos hc, hclose]
        rfl
    · cases h

/-! ## Pieces -/

/-- Some backslashes. -/
def slashes (n : Nat) : Text := List.replicate n (.char '\\')

theorem reverse_slashes (n : Nat) : (slashes n).reverse = slashes n := List.reverse_replicate

variable {n : Nat} {text s rest inside after : Text} {c : CodePoint}

theorem piecesFrom_nil : piecesFrom text n [] = [.text (text.reverse ++ slashes n)] := by
  rw [piecesFrom, slashes]

theorem piecesFrom_slash : piecesFrom text n (.char '\\' :: rest) = piecesFrom text (n + 1) rest := by
  rw [piecesFrom]

theorem piecesFrom_tag (h : tag? rest = some (inside, after)) :
    piecesFrom text n (.char '[' :: rest) =
      .text text.reverse :: .tag n inside :: piecesFrom [] 0 after := by
  rw [piecesFrom]
  split
  · case h_1 h' => cases h.symm.trans h'; rfl
  · case h_2 h' => cases h.symm.trans h'

theorem piecesFrom_bracket (h : tag? rest = none) :
    piecesFrom text n (.char '[' :: rest) = piecesFrom (.char '[' :: (slashes n ++ text)) 0 rest := by
  rw [piecesFrom]
  split
  · case h_1 h' => cases h.symm.trans h'
  · case h_2 h' => rfl

theorem piecesFrom_other (hs : c ≠ .char '\\') (hb : c ≠ .char '[') :
    piecesFrom text n (c :: rest) = piecesFrom (c :: (slashes n ++ text)) 0 rest := by
  rw [piecesFrom, slashes]
  · exact hs
  · exact hb

/-- Backslashes are counted. -/
theorem piecesFrom_slashes (m : Nat) :
    piecesFrom text n (slashes m ++ s) = piecesFrom text (n + m) s := by
  induction m generalizing n with
  | zero => rfl
  | succ m ih =>
    have hcons : slashes (m + 1) ++ s = .char '\\' :: (slashes m ++ s) := rfl
    rw [hcons, piecesFrom_slash, ih, Nat.add_right_comm, Nat.add_assoc]

/-- To prove something about all texts, one may follow their pieces: through backslashes,
    which are counted, over tags, and through anything else. -/
theorem pieces_induction {motive : Nat → Text → Prop} (nil : ∀ n, motive n [])
    (slash : ∀ n rest, motive (n + 1) rest → motive n (.char '\\' :: rest))
    (tag : ∀ n rest inside after, tag? rest = some (inside, after) → motive 0 after →
      motive n (.char '[' :: rest))
    (bracket : ∀ n rest, tag? rest = none → motive 0 rest → motive n (.char '[' :: rest))
    (other : ∀ n c rest, c ≠ .char '\\' → c ≠ .char '[' → motive 0 rest → motive n (c :: rest))
    (n : Nat) (s : Text) : motive n s := by
  have h : ∀ text : Text, motive n s := fun text => by
    fun_induction piecesFrom text n s with
    | case1 text n => exact nil n
    | case2 text n rest ih => exact slash n rest ih
    | case3 text n rest inside after h ih => exact tag n rest inside after h ih
    | case4 text n rest h ih => exact bracket n rest h ih
    | case5 text n c rest hs hb ih => exact other n c rest hs hb ih
  exact h []

/-! ## Escaped texts -/

/-- What becomes of the rest of a text that is escaped, after some backslashes. -/
def escapeFrom (n : Nat) (s : Text) : Text := (piecesFrom [] n s).flatMap escapePiece

/-- The text in front is kept. -/
theorem flatMap_piecesFrom (text : Text) (n : Nat) (s : Text) :
    (piecesFrom text n s).flatMap escapePiece = text.reverse ++ escapeFrom n s := by
  induction n, s using pieces_induction generalizing text with
  | nil n => simp [escapeFrom, piecesFrom_nil, escapePiece]
  | slash n rest ih => rw [piecesFrom_slash, ih, escapeFrom, escapeFrom, piecesFrom_slash]
  | tag n rest inside after h ih =>
    rw [piecesFrom_tag h, escapeFrom, piecesFrom_tag h]
    simp [escapePiece]
  | bracket n rest h ih =>
    rw [piecesFrom_bracket h, ih, escapeFrom.eq_1 n, piecesFrom_bracket h, ih]
    simp
  | other n c rest hs hb ih =>
    rw [piecesFrom_other hs hb, ih, escapeFrom.eq_1 n, piecesFrom_other hs hb, ih]
    simp

theorem escapeFrom_nil : escapeFrom n [] = slashes n := by
  rw [escapeFrom, piecesFrom_nil, List.flatMap_singleton]
  rfl

theorem escapeFrom_slash : escapeFrom n (.char '\\' :: rest) = escapeFrom (n + 1) rest := by
  rw [escapeFrom, piecesFrom_slash, escapeFrom]

theorem escapeFrom_tag (h : tag? rest = some (inside, after)) :
    escapeFrom n (.char '[' :: rest) =
      slashes (2 * n + 1) ++ .char '[' :: (inside ++ .char ']' :: escapeFrom 0 after) := by
  rw [escapeFrom, piecesFrom_tag h, escapeFrom]
  simp [escapePiece, slashes, tagText, Text.ofString, Text.ofChars]

theorem escapeFrom_bracket (h : tag? rest = none) :
    escapeFrom n (.char '[' :: rest) = slashes n ++ .char '[' :: escapeFrom 0 rest := by
  rw [escapeFrom, piecesFrom_bracket h, flatMap_piecesFrom]
  simp [reverse_slashes]

theorem escapeFrom_other (hs : c ≠ .char '\\') (hb : c ≠ .char '[') :
    escapeFrom n (c :: rest) = slashes n ++ c :: escapeFrom 0 rest := by
  rw [escapeFrom, piecesFrom_other hs hb, flatMap_piecesFrom]
  simp [reverse_slashes]

/-- Backslashes in front of a text close no tag. -/
theorem closeTag_slashes_append (n : Nat) (h : closeTag s = none) :
    closeTag (slashes n ++ s) = none := by
  refine closeTag_append_eq_none ?_ h
  induction n with
  | zero => rfl
  | succ n ih =>
    have hcons : slashes (n + 1) = .char '\\' :: slashes n := rfl
    rw [hcons, closeTag, ih]
    rfl

/-- Escaping closes no tag. -/
theorem closeTag_escapeFrom (n : Nat) (h : closeTag s = none) :
    closeTag (escapeFrom n s) = none := by
  induction n, s using pieces_induction with
  | nil n =>
    rw [escapeFrom_nil, ← List.append_nil (slashes n)]
    exact closeTag_slashes_append n rfl
  | slash n rest ih =>
    rw [closeTag, if_neg (by simp), if_neg (by simp), Option.map_eq_none_iff] at h
    rw [escapeFrom_slash]
    exact ih h
  | tag n rest inside after ht ih =>
    rw [escapeFrom_tag ht]
    exact closeTag_slashes_append _ rfl
  | bracket n rest ht ih =>
    rw [escapeFrom_bracket ht]
    exact closeTag_slashes_append _ rfl
  | other n c rest hs hb ih =>
    rw [closeTag] at h
    split at h
    · cases h
    · case isFalse hc =>
        rw [Option.map_eq_none_iff] at h
        rw [escapeFrom_other hs hb]
        refine closeTag_slashes_append n ?_
        rw [closeTag, if_neg hc, if_neg hb, ih h]
        rfl

/-- Backslashes stay in front of what is escaped. -/
theorem exists_escapeFrom_eq (n : Nat) (s : Text) : ∃ t, escapeFrom n s = slashes n ++ t := by
  induction n, s using pieces_induction with
  | nil n => exact ⟨[], by rw [escapeFrom_nil, List.append_nil]⟩
  | slash n rest ih =>
    obtain ⟨t, ht⟩ := ih
    refine ⟨.char '\\' :: t, ?_⟩
    rw [escapeFrom_slash, ht, slashes, slashes, List.replicate_succ', List.append_assoc]
    rfl
  | tag n rest inside after h ih =>
    have hslashes : slashes (2 * n + 1) = slashes n ++ slashes (n + 1) := by
      rw [slashes, slashes, slashes, List.replicate_append_replicate]
      congr 1
      omega
    exact ⟨_, by rw [escapeFrom_tag h, hslashes, List.append_assoc]⟩
  | bracket n rest h ih => exact ⟨_, escapeFrom_bracket h⟩
  | other n c rest hs hb ih => exact ⟨_, escapeFrom_other hs hb⟩

/-- What may come behind an escaped text without becoming part of a tag that began there. -/
structure EndsTags (u : Text) : Prop where
  opens : tag? u = none
  closes : closeTag u = none

/-- What is no tag stays none with something behind it that closes no tag. -/
theorem tag?_append_eq_none {u : Text} (hu : EndsTags u) (h : tag? s = none) : tag? (s ++ u) = none := by
  cases s with
  | nil => exact hu.opens
  | cons c rest =>
    rw [tag?] at h
    rw [List.cons_append, tag?]
    split at h
    · case isTrue hc =>
        rw [Option.map_eq_none_iff] at h
        rw [if_pos hc, closeTag_append_eq_none h hu.closes]
        rfl
    · case isFalse hc => rw [if_neg hc]

/-- What is no tag behind a bracket is none when it is escaped. -/
theorem tag?_escapeFrom {u : Text} (hu : EndsTags u) (h : tag? s = none) :
    tag? (escapeFrom 0 s ++ u) = none := by
  refine tag?_append_eq_none hu ?_
  cases s with
  | nil => rw [escapeFrom_nil]; rfl
  | cons c rest =>
    by_cases hs : c = .char '\\'
    · subst hs
      obtain ⟨t, ht⟩ := exists_escapeFrom_eq 1 rest
      rw [escapeFrom_slash, ht]
      rfl
    by_cases hb : c = .char '['
    · subst hb
      -- Either way it goes on with a backslash or a bracket, which no tag begins with.
      cases ht : tag? rest with
      | none => rw [escapeFrom_bracket ht]; rfl
      | some parts => rw [escapeFrom_tag ht]; rfl
    · rw [escapeFrom_other hs hb]
      change tag? (c :: escapeFrom 0 rest) = none
      rw [tag?] at h ⊢
      split at h
      · case isTrue hc =>
          rw [Option.map_eq_none_iff] at h
          rw [if_pos hc, closeTag_escapeFrom 0 h]
          rfl
      · case isFalse hc => rw [if_neg hc]

/-- A piece whose tag is made plain. -/
def Piece.plain : Piece → Piece
  | .text s => .text s
  | .tag backslashes inside => .tag (2 * backslashes + 1) inside

/-- Reading an escaped text gives the pieces of the text, with plain tags, and goes on with
    what comes after it where the text ended. -/
theorem piecesFrom_escapeFrom {u : Text} (hu : EndsTags u) (text : Text) (n : Nat) (s : Text) :
    ∃ pieces last m, piecesFrom text n s = pieces ++ [.text (last.reverse ++ slashes m)] ∧
      piecesFrom text 0 (escapeFrom n s ++ u) = pieces.map Piece.plain ++ piecesFrom last m u := by
  induction n, s using pieces_induction generalizing text with
  | nil n =>
    refine ⟨[], text, n, piecesFrom_nil, ?_⟩
    rw [escapeFrom_nil, piecesFrom_slashes, Nat.zero_add]
    rfl
  | slash n rest ih =>
    rw [piecesFrom_slash, escapeFrom_slash]
    exact ih text
  | tag n rest inside after h ih =>
    obtain ⟨ps, last, m, hpieces, hescaped⟩ := ih []
    refine ⟨.text text.reverse :: .tag n inside :: ps, last, m, ?_, ?_⟩
    · rw [piecesFrom_tag h, hpieces]
      rfl
    · rw [escapeFrom_tag h, List.append_assoc, piecesFrom_slashes, Nat.zero_add]
      have hinside := (tag?_eq_some h).2 (escapeFrom 0 after ++ u)
      simp only [List.cons_append, List.append_assoc]
      rw [piecesFrom_tag hinside, hescaped]
      rfl
  | bracket n rest h ih =>
    rw [piecesFrom_bracket h, escapeFrom_bracket h, List.append_assoc, piecesFrom_slashes,
      List.cons_append, Nat.zero_add, piecesFrom_bracket (tag?_escapeFrom hu h)]
    exact ih _
  | other n c rest hs hb ih =>
    rw [piecesFrom_other hs hb, escapeFrom_other hs hb, List.append_assoc, piecesFrom_slashes,
      List.cons_append, Nat.zero_add, piecesFrom_other hs hb]
    exact ih _

/-! ## Rendering -/

/-- What a piece shows whose tag is plain. -/
def Piece.shown : Piece → Text
  | .text s => showBrackets s
  | .tag backslashes inside => slashes backslashes ++ tagText inside

/-- Plain tags are shown, and what comes after them is rendered as if they were not there. -/
theorem renderPieces_plain_append (opened : List Text) (ps qs : List Piece) :
    renderPieces opened (ps.map Piece.plain ++ qs) =
      (renderPieces opened qs).map (ps.flatMap Piece.shown ++ ·) := by
  induction ps with
  | nil =>
    rw [List.map_nil, List.nil_append]
    cases renderPieces opened qs <;> rfl
  | cons p ps ih =>
    rw [List.map_cons, List.cons_append, List.flatMap_cons]
    cases p with
    | text s =>
      rw [Piece.plain, renderPieces, ih, Piece.shown]
      cases renderPieces opened qs with
      | ok shown => exact congrArg Except.ok (List.append_assoc ..).symm
      | error u => rfl
    | tag backslashes inside =>
      have hodd : (2 * backslashes + 1) % 2 = 1 := by omega
      have hhalf : (2 * backslashes + 1) / 2 = backslashes := by omega
      rw [Piece.plain, renderPieces, if_pos hodd, hhalf, ih, Piece.shown]
      cases renderPieces opened qs with
      | ok shown => exact congrArg Except.ok (List.append_assoc ..).symm
      | error u => rfl

/-! ## Halves -/

theorem holdsHalf_slashes (n : Nat) : Text.holdsHalf (slashes n) = false :=
  Text.holdsHalf_replicate n '\\'

theorem holdsHalf_showBrackets (s : Text) :
    Text.holdsHalf (showBrackets s) = Text.holdsHalf s := by
  fun_induction showBrackets s with
  | case1 => rfl
  | case2 rest ih => exact ih
  | case3 c rest h ih => exact congrArg (c.isHalf || ·) ih

/-- Whether a piece holds a half. -/
def Piece.holdsHalf : Piece → Bool
  | .text s => Text.holdsHalf s
  | .tag _ inside => Text.holdsHalf inside

/-- The halves of a text are in its pieces. -/
theorem any_holdsHalf_piecesFrom (text : Text) (n : Nat) (s : Text) :
    (piecesFrom text n s).any Piece.holdsHalf = (Text.holdsHalf text || Text.holdsHalf s) := by
  induction n, s using pieces_induction generalizing text with
  | nil n => simp [piecesFrom_nil, Piece.holdsHalf, holdsHalf_slashes]
  | slash n rest ih =>
    rw [piecesFrom_slash, ih]
    rfl
  | tag n rest inside after h ih =>
    rw [piecesFrom_tag h, (tag?_eq_some h).1]
    simp [ih, Piece.holdsHalf, CodePoint.isHalf]
  | bracket n rest h ih =>
    rw [piecesFrom_bracket h, ih]
    simp [holdsHalf_slashes, CodePoint.isHalf]
  | other n c rest hs hb ih =>
    rw [piecesFrom_other hs hb, ih]
    simp [holdsHalf_slashes, Bool.or_assoc, Bool.or_left_comm]

theorem holdsHalf_flatMap_shown (ps : List Piece) :
    Text.holdsHalf (ps.flatMap Piece.shown) = ps.any Piece.holdsHalf := by
  rw [Text.holdsHalf, List.any_flatMap]
  refine congrArg (ps.any ·) (funext fun p => ?_)
  cases p with
  | text s => exact holdsHalf_showBrackets s
  | tag n inside =>
    change Text.holdsHalf (slashes n ++ tagText inside) = Text.holdsHalf inside
    simp [holdsHalf_slashes, tagText]

theorem holdsHalf_escape (s : Text) : Text.holdsHalf (escape s) = Text.holdsHalf s := by
  have hpieces : Text.holdsHalf ((pieces s).flatMap escapePiece) = Text.holdsHalf s := by
    rw [Text.holdsHalf, List.any_flatMap, ← Bool.false_or (Text.holdsHalf s),
      ← Text.holdsHalf_nil, ← any_holdsHalf_piecesFrom [] 0 s]
    refine congrArg ((pieces s).any ·) (funext fun p => ?_)
    cases p with
    | text s => rfl
    | tag n inside =>
      change Text.holdsHalf (slashes (2 * n + 1) ++ tagText inside) = Text.holdsHalf inside
      simp [holdsHalf_slashes, tagText]
  rw [escape]
  split
  · rw [Text.holdsHalf_append, hpieces, Text.holdsHalf_ofString, Bool.or_false]
  · exact hpieces

/-! ## Plain texts -/

/-- A text that switches no style: reading it gives pieces with plain tags, and goes on with
    what comes after it. Its halves are shown or held back. -/
def IsPlain (t : Text) : Prop :=
  ∀ text u, EndsTags u → ∃ (ps : List Piece) (last : Text) (m : Nat),
    piecesFrom text 0 (t ++ u) = ps.map Piece.plain ++ piecesFrom last m u ∧
      (Text.holdsHalf (ps.flatMap Piece.shown) || Text.holdsHalf last) =
        (Text.holdsHalf text || Text.holdsHalf t)

theorem isPlain_nil : IsPlain [] := fun text _ _ =>
  ⟨[], text, 0, rfl, by simp [Text.holdsHalf]⟩

/-- What is neither a backslash nor a bracket may be put in front. -/
theorem IsPlain.cons {t : Text} (h : IsPlain t) (hs : c ≠ .char '\\') (hb : c ≠ .char '[') :
    IsPlain (c :: t) := fun text u hu => by
  obtain ⟨pieces, last, m, hpieces, hhalf⟩ := h (c :: text) u hu
  refine ⟨pieces, last, m, ?_, ?_⟩
  · rw [List.cons_append, piecesFrom_other hs hb]
    exact hpieces
  · rw [hhalf, Text.holdsHalf_cons, Text.holdsHalf_cons, Bool.or_assoc, Bool.or_left_comm]

theorem exists_escape_eq (s : Text) : ∃ k, escape s = escapeFrom 0 s ++ slashes k := by
  rw [escape]
  split
  · exact ⟨1, rfl⟩
  · exact ⟨0, (List.append_nil _).symm⟩

/-- What is escaped switches no style. -/
theorem isPlain_escape (s : Text) : IsPlain (escape s) := fun text u hu => by
  obtain ⟨k, hk⟩ := exists_escape_eq s
  -- A backslash that is added at the end is no part of a tag either.
  have hends : EndsTags (slashes k ++ u) := by
    refine ⟨?_, closeTag_slashes_append k hu.closes⟩
    cases k with
    | zero => exact hu.opens
    | succ k => rfl
  obtain ⟨pieces, last, m, hpieces, hescaped⟩ := piecesFrom_escapeFrom hends text 0 s
  have hhalf := any_holdsHalf_piecesFrom text 0 s
  rw [hpieces, List.any_append, ← holdsHalf_flatMap_shown] at hhalf
  refine ⟨pieces, last, m + k, ?_, ?_⟩
  · rw [hk, List.append_assoc, hescaped, piecesFrom_slashes]
  · rw [holdsHalf_escape, ← hhalf]
    simp [Piece.holdsHalf, holdsHalf_slashes]

/-! ## Styles -/

/-- The name of a style. It makes a tag that switches the style on, and one that switches
    it off. -/
structure IsStyle (style : Text) : Prop where
  on : tag? (style ++ "]") = some (style, [])
  off : tag? (.char '/' :: (style ++ "]")) = some (.char '/' :: style, [])
  /-- A tag that begins with a slash switches off. -/
  first : style.head? ≠ some (.char '/')
  named : (styleName style).isEmpty = false
  encodable : Text.holdsHalf style = false

namespace IsStyle

variable {style : Text}

theorem switch_on (h : IsStyle style) : switch style [] = .ok [styleName style] := by
  have hfirst := h.first
  unfold switch
  split
  · exact absurd rfl hfirst
  · rfl

theorem switch_off (h : IsStyle style) :
    switch (.char '/' :: style) [styleName style] = .ok [] := by
  simp [switch, h.named]

end IsStyle

/-- At the end, a plain text is shown with all its halves. -/
theorem IsPlain.render {t : Text} (h : IsPlain t) (opened : List Text) :
    ∃ shown, renderPieces opened (piecesFrom [] 0 t) = .ok shown ∧
      Text.holdsHalf shown = Text.holdsHalf t := by
  obtain ⟨ps, last, m, hpieces, hhalf⟩ := h [] [] ⟨rfl, rfl⟩
  rw [List.append_nil] at hpieces
  refine ⟨ps.flatMap Piece.shown ++ showBrackets (last.reverse ++ slashes m), ?_, ?_⟩
  · rw [hpieces, piecesFrom_nil, renderPieces_plain_append, renderPieces, renderPieces]
    exact congrArg (fun s => Except.ok (ps.flatMap Piece.shown ++ s)) (List.append_nil _)
  · simpa [holdsHalf_showBrackets, holdsHalf_slashes] using hhalf

/-- The tag that switches a style off may be made plain by what stands in front of it; it
    is rendered in either case. -/
theorem IsStyle.render_off {style t : Text} (hstyle : IsStyle style) (ht : IsPlain t) (m : Nat) :
    ∃ shown, renderPieces [styleName style] (.tag m (.char '/' :: style) :: piecesFrom [] 0 t) =
        .ok shown ∧ Text.holdsHalf shown = Text.holdsHalf t := by
  rw [renderPieces]
  by_cases hm : m % 2 = 1
  · obtain ⟨shown, hshown, hhalf⟩ := ht.render [styleName style]
    rw [if_pos hm, hshown]
    refine ⟨_, rfl, ?_⟩
    simp [hhalf, hstyle.encodable, tagText, CodePoint.isHalf]
  · obtain ⟨shown, hshown, hhalf⟩ := ht.render []
    rw [if_neg hm, hstyle.switch_off]
    refine ⟨slashes (m / 2) ++ shown, ?_, ?_⟩
    · change Except.bind (renderPieces [] (piecesFrom [] 0 t)) _ = _
      rw [hshown]
      rfl
    · rw [Text.holdsHalf_append, holdsHalf_slashes, Bool.false_or, hhalf]

theorem isStyle_blue : IsStyle "blue" := by
  constructor <;> decide

theorem isStyle_green : IsStyle "green" := by
  constructor <;> decide

theorem isStyle_yellow : IsStyle "yellow" := by
  constructor <;> decide

theorem isStyle_red : IsStyle "red" := by
  constructor <;> decide

/-- A plain text in a style, and a plain text behind it, are shown with all their halves. -/
theorem render_styled {style t u : Text} (hstyle : IsStyle style) (ht : IsPlain t)
    (hu : IsPlain u) : ∃ shown, render (styled style t ++ u) = .ok shown ∧
      Text.holdsHalf shown = (Text.holdsHalf t || Text.holdsHalf u) := by
  have hmarkup : styled style t ++ u =
      .char '[' :: (style ++ .char ']' :: (t ++ .char '[' ::
        (.char '/' :: style ++ .char ']' :: u))) := by
    simp [styled, tagText, Text.ofString, Text.ofChars]
  have hon := (tag?_eq_some hstyle.on).2
  have hoff := (tag?_eq_some hstyle.off).2
  obtain ⟨ps, last, m, hpieces, hhalf⟩ :=
    ht [] (.char '[' :: (.char '/' :: style ++ .char ']' :: u)) ⟨rfl, rfl⟩
  obtain ⟨shown, hshown, hrest⟩ := hstyle.render_off hu m
  have hinner : renderPieces [styleName style] (ps.map Piece.plain ++
      (.text last.reverse :: .tag m (.char '/' :: style) :: piecesFrom [] 0 u)) =
        .ok (ps.flatMap Piece.shown ++ (showBrackets last.reverse ++ shown)) := by
    rw [renderPieces_plain_append, renderPieces, hshown]
    rfl
  have hrender : renderPieces [] (pieces (styled style t ++ u)) =
      .ok (ps.flatMap Piece.shown ++ (showBrackets last.reverse ++ shown)) := by
    rw [hmarkup, pieces, piecesFrom_tag (hon _), hpieces, piecesFrom_tag (hoff _), renderPieces,
      renderPieces, if_neg (by decide), hstyle.switch_on]
    change Except.bind (Except.bind (renderPieces [styleName style] _) _) _ = _
    rw [hinner]
    rfl
  refine ⟨_, by rw [render, if_pos (by rw [hmarkup]; rfl), hrender], ?_⟩
  rw [Text.holdsHalf_append, Text.holdsHalf_append, holdsHalf_showBrackets,
    Text.holdsHalf_reverse, ← Bool.or_assoc, hhalf, hrest, Text.holdsHalf_nil, Bool.false_or]

end KeyAudit.Markup
