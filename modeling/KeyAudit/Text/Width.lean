import KeyAudit.Text.Case
import KeyAudit.Text.Split
import KeyAudit.Text.Tables.CellWidth

/-!
# Columns of a terminal

How many cells of a terminal line a text takes, and the replacement of tabs by
spaces up to the next multiple of eight cells.

Two characters change the width of others. A joiner makes one sign of the
characters at its sides, and the one behind it takes no cell. The emoji selector
widens the character in front of it, if that has a wide form.
-/

namespace KeyAudit.Text

/-- The cells that a character takes. -/
def cellWidth (c : CodePoint) : Nat :=
  if inRanges Tables.zeroWidth c.toNat then 0
  else if inRanges Tables.doubleWidth c.toNat then 2
  else 1

/-- The cells that the emoji selector adds to a character. -/
def widening (c : CodePoint) : Nat :=
  if inRanges Tables.widened c.toNat then 1 else 0

/-- The character that joins those at its sides. -/
def joiner : CodePoint := '\u200d'

/-- The character that selects the emoji form of the one in front of it. -/
def emojiSelector : CodePoint := '\ufe0f'

/-- The cells that the rest of a text takes, after the character `last`, if that
    may still be widened. -/
def widthAfter (last : Option CodePoint) : Text → Nat
  | [] => 0
  | [c] =>
    if c = joiner then 0 else if c = emojiSelector then (last.map widening).getD 0 else cellWidth c
  | c :: d :: rest =>
    if c = joiner then widthAfter last rest
    else if c = emojiSelector then (last.map widening).getD 0 + widthAfter none (d :: rest)
    else if cellWidth c = 0 then widthAfter last (d :: rest)
    else cellWidth c + widthAfter (some c) (d :: rest)

/-- The cells that a text takes. -/
def textWidth (s : Text) : Nat :=
  widthAfter none s

/-- The distance between two tab stops. -/
def tabStop : Nat := 8

/-- Puts the pieces of a line between its tabs together again, with spaces for the
    tabs: one, and then as many as there are to the next stop. The pieces have
    `column` cells in front of them. -/
def fillTabs (column : Nat) : List Text → Text
  | [] => []
  | [piece] => piece
  | piece :: rest =>
    let shown := piece ++ " "
    let column := column + textWidth shown
    let fill := (tabStop - column % tabStop) % tabStop
    shown ++ (List.replicate fill ' ' : Text) ++ fillTabs (column + fill) rest

/-- A line with its tabs replaced by spaces. -/
def expandTabs (line : Text) : Text :=
  fillTabs 0 (splitOn '\t' line)

theorem holdsHalf_fillTabs (column : Nat) (pieces : List Text) :
    holdsHalf (fillTabs column pieces) = pieces.any holdsHalf := by
  induction pieces generalizing column with
  | nil => rfl
  | cons piece rest ih =>
    cases rest with
    | nil => simp [fillTabs]
    | cons next rest =>
      rw [fillTabs]
      · -- The spaces for a tab are no halves.
        have hspace : holdsHalf " " = false := rfl
        rw [holdsHalf_append, holdsHalf_append, holdsHalf_append, ih, hspace, holdsHalf_replicate,
          Bool.or_false, Bool.or_false]
        rfl
      · exact List.cons_ne_nil _ _

theorem holdsHalf_expandTabs (line : Text) : holdsHalf (expandTabs line) = holdsHalf line := by
  rw [expandTabs, holdsHalf_fillTabs, any_holdsHalf_splitOn rfl]

end KeyAudit.Text
