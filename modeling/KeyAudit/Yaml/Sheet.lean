import KeyAudit.Text.Basic

/-!
# A sheet that is written on

YAML means its structure by indentation, so whoever writes it has to know the
column and what stands at the start of the line. A `Sheet` is the text written so
far with what is needed of that.
-/

namespace KeyAudit.Yaml

/-- The text written so far, last character first. -/
structure Sheet where
  text : Text
  column : Nat
  /-- Whether the last thing written separates from what follows. -/
  spaced : Bool
  /-- Whether nothing but indentation and marks of structure stand on the line. -/
  fresh : Bool
  /-- Whether the text ends with a plain text that might go on. -/
  openEnded : Bool

namespace Sheet

/-- The empty sheet. -/
def blank : Sheet := ⟨[], 0, true, true, false⟩

/-- Writes characters of a line. -/
def write (s : Sheet) (chars : Text) : Sheet :=
  { s with text := chars.reverse ++ s.text, column := s.column + chars.length }

/-- Ends the line with a given character. -/
def breakLine (s : Sheet) (lineEnd : CodePoint) : Sheet :=
  { s with text := lineEnd :: s.text, column := 0, spaced := true, fresh := true }

/-- Goes to a column at the start of a line, which is a new one unless nothing
    stands in the way. -/
def indent (s : Sheet) (column : Nat) : Sheet :=
  let s :=
    if !s.fresh || s.column > column || (s.column == column && !s.spaced) then s.breakLine '\n'
    else s
  if s.column < column then
    { s.write (List.replicate (column - s.column) ' ') with spaced := true }
  else s

/-- Writes a mark of structure, with a space in front if it `needsSpace`. After it
    the line is spaced if `spaced`, and fresh if it was and `fresh`. -/
def mark (s : Sheet) (chars : Text) (needsSpace spaced fresh : Bool) : Sheet :=
  let t := s.write (if s.spaced || !needsSpace then chars else ' ' :: chars)
  { t with spaced := spaced, fresh := s.fresh && fresh, openEnded := false }

end Sheet

end KeyAudit.Yaml
