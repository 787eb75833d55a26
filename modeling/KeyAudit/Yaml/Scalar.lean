import KeyAudit.Text.Quoted
import KeyAudit.Yaml.Implicit
import KeyAudit.Yaml.Sheet

/-!
# Strings in YAML

A string is written plain if it reads as itself then, otherwise in single quotes,
and in double quotes if single ones cannot hold it. Long strings are folded: once
the column is past the width of the sheet a space becomes a line break.
-/

namespace KeyAudit.Yaml

/-- The width of the sheet. -/
def width : Nat := 80

/-- Whether a code point breaks lines. -/
def isBreak (c : CodePoint) : Bool :=
  c == '\n' || c == '\u0085' || c == '\u2028' || c == '\u2029'

/-- Whether a code point separates words. -/
def isSeparator (c : CodePoint) : Bool :=
  c == '\x00' || c == ' ' || c == '\t' || c == '\r' || isBreak c

/-- Whether a code point may be written as itself. -/
def isAllowed (c : CodePoint) : Bool :=
  let n := c.toNat
  n == 0xA || (0x20 ≤ n && n ≤ 0x7E) || n == 0x85 || (0xA0 ≤ n && n ≤ 0xD7FF) ||
    (0xE000 ≤ n && n ≤ 0xFFFD && n != 0xFEFF) || (0x10000 ≤ n && n ≤ 0x10FFFE)

/-- Whether a text ends, or goes on with a separator. -/
def separates : Text → Bool
  | [] => true
  | c :: _ => isSeparator c

/-- Whether a text begins like something else than a plain string. -/
def beginsOtherwise (s : Text) : Bool :=
  ("---" : Text).isPrefixOf s || ("..." : Text).isPrefixOf s ||
    match s with
    | [] => false
    | c :: rest => ("#,[]\x7b\x7d&*!|>'\"%@`" : Text).contains c ||
        (("?:-" : Text).contains c && separates rest)

/-- Whether a text has a mark in it that ends a plain string: a colon before, or
    a number sign after a separator. -/
def hasInnerMark : Text → Bool
  | [] => false
  | c :: rest =>
    (match rest with
      | [] => false
      | d :: after => (d == ':' && separates after) || (d == '#' && isSeparator c)) ||
      hasInnerMark rest

/-- Whether some code point of the first kind is followed by one of the second. -/
def hasPair (first second : CodePoint → Bool) : Text → Bool
  | c :: d :: rest => (first c && second d) || hasPair first second (d :: rest)
  | _ => false

/-- Whether an end of a text satisfies a condition. -/
def atEnd (p : CodePoint → Bool) (s : Text) : Bool :=
  s.head?.any p || s.getLast?.any p

/-- Whether a string may be written plain, as far as its code points go. -/
def allowsPlain (s : Text) : Bool :=
  s.all isAllowed && !s.any isBreak && !atEnd (· == ' ') s && !beginsOtherwise s &&
    !hasInnerMark s

/-- Whether a string may be written in single quotes. -/
def allowsSingle (s : Text) : Bool :=
  s.all isAllowed && !hasPair (· == ' ') isBreak s && !hasPair isBreak (· == ' ') s

/-- A way to write a string. -/
inductive Style
  | plain
  | single
  | double
deriving Repr, DecidableEq

/-- How a string is written. As a key on the line of its value it has to be a
    single line and not empty to be plain, and a single line for single quotes. -/
def styleOf (isKey : Bool) (s : Text) : Style :=
  let severalLines := s.any isBreak
  if !readsAsOther s && allowsPlain s && !(isKey && (s.isEmpty || severalLines)) then .plain
  else if allowsSingle s && !(isKey && severalLines) then .single
  else .double

/-- The kinds of code points that matter for folding. -/
inductive Kind
  | space
  | lineBreak
  | other
deriving Repr, DecidableEq

/-- The kind of a code point. -/
def Kind.of (c : CodePoint) : Kind :=
  if c = ' ' then .space else if isBreak c then .lineBreak else .other

/-- The runs of code points of one kind in a text. -/
def runs (s : Text) : List (Kind × Text) :=
  s.foldr (fun c rs =>
    match rs with
    | (kind, run) :: rest =>
      if kind = Kind.of c then (kind, c :: run) :: rest else (Kind.of c, [c]) :: rs
    | [] => [(Kind.of c, [c])]) []

/-- Writes the runs of a plain string. -/
def writePlainRuns (column : Nat) (fold : Bool) (t : Sheet) : List (Kind × Text) → Sheet
  | [] => t
  | (kind, run) :: rest =>
    let t :=
      if kind = .space && run.length = 1 && t.column > width && fold then
        { t.indent column with spaced := false, fresh := false }
      else t.write run
    writePlainRuns column fold t rest

/-- Writes a plain string; `column` is where its further lines begin. -/
def writePlain (column : Nat) (fold root : Bool) (t : Sheet) (s : Text) : Sheet :=
  let t := { t with openEnded := root }
  if s.isEmpty then t
  else
    let t := if t.spaced then t else t.write [' ']
    writePlainRuns column fold { t with spaced := false, fresh := false } (runs s)

/-- A code point within single quotes. -/
def singleChar (c : CodePoint) : Text :=
  if c = '\'' then ['\'', '\''] else [c]

/-- Writes the runs of a string in single quotes, the `first` of which starts the
    string. -/
def writeSingleRuns (column : Nat) (fold first : Bool) (t : Sheet) :
    List (Kind × Text) → Sheet
  | [] => t
  | (kind, run) :: rest =>
    let t :=
      match kind with
      | .space =>
        if run.length = 1 && t.column > width && fold && !first && !rest.isEmpty then
          t.indent column
        else t.write run
      | .lineBreak =>
        let t := if run.head? = some '\n' then t.breakLine '\n' else t
        (run.foldl Sheet.breakLine t).indent column
      | .other => t.write (run.flatMap singleChar)
    writeSingleRuns column fold false t rest

/-- Writes a string in single quotes. -/
def writeSingle (column : Nat) (fold : Bool) (t : Sheet) (s : Text) : Sheet :=
  (writeSingleRuns column fold true (t.mark "'" true false false) (runs s)).mark "'" false
    false false

/-- Whether a code point needs no escape within double quotes. -/
def isBare (c : CodePoint) : Bool :=
  c != '"' && c != '\\' && c != '\n' && !isBreak c && isAllowed c && c.toNat ≤ 0xFFFF

/-- The short escapes. -/
def shortEscapes : List (CodePoint × Char) := [
  ('\x00', '0'), ('\x07', 'a'), ('\x08', 'b'), ('\x09', 't'), ('\n', 'n'), ('\x0b', 'v'),
  ('\x0c', 'f'), ('\r', 'r'), ('\x1b', 'e'), ('"', '"'), ('\\', '\\'), ('\u0085', 'N'),
  ('\u00a0', '_'), ('\u2028', 'L'), ('\u2029', 'P')]

/-- An escaped code point. -/
def escape (c : CodePoint) : Text :=
  match shortEscapes.lookup c with
  | some e => ['\\', e]
  | none =>
    let n := c.toNat
    if n ≤ 0xFF then "\\x" ++ Text.capitalHexDigits 2 n
    else if n ≤ 0xFFFF then "\\u" ++ Text.capitalHexDigits 4 n
    else "\\U" ++ Text.capitalHexDigits 8 n

/-- Breaks the line within double quotes before `rest`; a space that comes next
    is kept by a backslash. -/
def foldDouble (column : Nat) (t : Sheet) (chunk rest : Text) : Sheet :=
  let t := (t.write (chunk.reverse ++ "\\")).indent column
  let t := { t with spaced := false, fresh := false }
  if rest.head? = some ' ' then t.write ['\\'] else t

/-- Writes the rest of a string in double quotes, of which `chunk`, last code
    point first, is still to be written. The flag `first` is set at the start of the
    string. A line may be broken at a space or next to an escape, but not before
    the last code point. -/
def writeDoubleFrom (column : Nat) (fold first : Bool) (t : Sheet) (chunk : Text) :
    Text → Sheet
  | [] => t.write chunk.reverse
  | c :: rest =>
    let mayFold := fold && !first && !rest.isEmpty
    if isBare c then
      if mayFold && (c == ' ' || chunk.isEmpty) && t.column + chunk.length > width then
        writeDoubleFrom column fold false (foldDouble column t chunk (c :: rest)) [c] rest
      else writeDoubleFrom column fold false t (c :: chunk) rest
    else
      let t := (t.write chunk.reverse).write (escape c)
      let t := if mayFold && t.column > width + 1 then foldDouble column t [] rest else t
      writeDoubleFrom column fold false t [] rest

/-- Writes a string in double quotes. -/
def writeDouble (column : Nat) (fold : Bool) (t : Sheet) (s : Text) : Sheet :=
  (writeDoubleFrom column fold true (t.mark "\"" true false false) [] s).mark "\"" false
    false false

/-- Where a string stands. -/
structure Place where
  /-- Where its further lines begin. -/
  column : Nat
  /-- Whether it is a key on the line of its value. -/
  isKey : Bool
  /-- Whether it is the whole document. -/
  isRoot : Bool

/-- Writes a string. Keys on the line of their values are not folded. -/
def writeString (place : Place) (t : Sheet) (s : Text) : Sheet :=
  match styleOf place.isKey s with
  | .plain => writePlain place.column (!place.isKey) place.isRoot t s
  | .single => writeSingle place.column (!place.isKey) t s
  | .double => writeDouble place.column (!place.isKey) t s

end KeyAudit.Yaml
