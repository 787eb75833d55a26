import KeyAudit.Text.Blank
import KeyAudit.Text.Case
import KeyAudit.Text.Split

/-!
# Console markup

Text for the console may hold tags such as `[blue]` and `[/blue]`, which switch a
style on and off and are not shown. A tag is a bracket, a small letter or one of
`#`, `/` and `@`, then anything but a bracket up to the closing bracket. Backslashes
in front of a tag count in pairs: each pair shows one, and an odd one makes the
tag plain text. In the text between tags `\[` shows a bracket.

* `escape` makes markup of a text that is to be shown as it is;
* `render` gives the text that markup shows, and fails if a tag closes a style
  that is not open.
-/

namespace KeyAudit.Markup

/-- Whether a character may follow the opening bracket of a tag. -/
def opensTag (c : CodePoint) : Bool :=
  c.isBetween 'a' 'z' || c == '#' || c == '/' || c == '@'

/-- The inside of a tag up to its closing bracket, and what follows. -/
def closeTag : Text → Option (Text × Text)
  | [] => none
  | c :: rest =>
    if c = ']' then some ([], rest)
    else if c = '[' then none
    else (closeTag rest).map fun (inside, after) => (c :: inside, after)

/-- The inside of the tag whose opening bracket stands before a text, and what
    follows the tag. -/
def tag? : Text → Option (Text × Text)
  | [] => none
  | c :: rest =>
    if opensTag c then (closeTag rest).map fun (inside, after) => (c :: inside, after) else none

/-- What follows a tag is shorter than the tag and what follows. -/
theorem length_closeTag {s inside after : Text} (h : closeTag s = some (inside, after)) :
    after.length < s.length := by
  induction s generalizing inside with
  | nil => simp [closeTag] at h
  | cons c rest ih =>
    rw [closeTag] at h
    split at h
    · simp_all
    · split at h
      · contradiction
      · obtain ⟨⟨i, a⟩, hc, he⟩ := Option.map_eq_some_iff.1 h
        simp only [Prod.mk.injEq] at he
        have := ih (he.2 ▸ hc)
        simp only [List.length_cons]
        omega

/-- What follows a tag is shorter than the tag and what follows. -/
theorem length_tag {s inside after : Text} (h : tag? s = some (inside, after)) :
    after.length < s.length := by
  cases s with
  | nil => simp [tag?] at h
  | cons c rest =>
    rw [tag?] at h
    split at h
    · obtain ⟨⟨i, a⟩, hc, he⟩ := Option.map_eq_some_iff.1 h
      simp only [Prod.mk.injEq] at he
      have := length_closeTag (he.2 ▸ hc)
      simp only [List.length_cons]
      omega
    · contradiction

/-- A piece of markup. -/
inductive Piece
  /-- Text between tags. -/
  | text (s : Text)
  /-- A tag with some backslashes in front of it. -/
  | tag (backslashes : Nat) (inside : Text)
deriving Repr, DecidableEq

/-- The pieces of markup, after some text, last character first, and some
    backslashes. -/
def piecesFrom (text : Text) (backslashes : Nat) (s : Text) : List Piece :=
  match s with
  | [] => [.text (text.reverse ++ (List.replicate backslashes '\\' : Text))]
  | .char '\\' :: rest => piecesFrom text (backslashes + 1) rest
  | .char '[' :: rest =>
    match _h : tag? rest with
    | some (inside, after) =>
      .text text.reverse :: .tag backslashes inside :: piecesFrom [] 0 after
    | none => piecesFrom ('[' :: ((List.replicate backslashes '\\' : Text) ++ text)) 0 rest
  | c :: rest => piecesFrom (c :: ((List.replicate backslashes '\\' : Text) ++ text)) 0 rest
termination_by s.length
decreasing_by
  all_goals try simp only [List.length_cons]
  · omega
  · have := length_tag _h
    omega
  · omega
  · omega

/-- The pieces of markup. -/
def pieces (s : Text) : List Piece :=
  piecesFrom [] 0 s

/-- A tag as it is written. -/
def tagText (inside : Text) : Text :=
  "[" ++ inside ++ "]"

/-- A piece of a text with its tags made plain. -/
def escapePiece : Piece → Text
  | .text s => s
  | .tag backslashes inside =>
    (List.replicate (2 * backslashes + 1) '\\' : Text) ++ tagText inside

/-- Whether a text ends with a backslash and not with two. -/
def endsWithBackslash (s : Text) : Bool :=
  match s.reverse with
  | .char '\\' :: .char '\\' :: _ => false
  | .char '\\' :: _ => true
  | _ => false

/-- Markup that shows a text. A single backslash at the end is doubled, as it
    might otherwise meet a tag that is put behind it. -/
def escape (s : Text) : Text :=
  let escaped := (pieces s).flatMap escapePiece
  if endsWithBackslash escaped then escaped ++ "\\" else escaped

/-- Text between tags with its escaped brackets shown. -/
def showBrackets : Text → Text
  | [] => []
  | .char '\\' :: .char '[' :: rest => '[' :: showBrackets rest
  | c :: rest => c :: showBrackets rest

/-- A tag that closes a style which is not open. -/
structure Unmatched where
  inside : Text
deriving Repr, DecidableEq

/-- The wording for a tag that closes nothing. -/
def Unmatched.message (u : Unmatched) : Text :=
  "closing tag '" ++ tagText u.inside ++ "' doesn't match any open tag"

/-- The name of the style that a tag switches. -/
def styleName (inside : Text) : Text :=
  Text.lower (Text.trim (Text.takeUntil '=' inside))

/-- The open styles, innermost first, after a tag. -/
def switch (inside : Text) (opened : List Text) : Except Unmatched (List Text) :=
  match inside with
  | .char '/' :: rest =>
    let name := styleName rest
    if name.isEmpty then
      match opened with
      | _ :: opened => .ok opened
      | [] => .error ⟨inside⟩
    else if opened.contains name then .ok (opened.erase name)
    else .error ⟨inside⟩
  | _ => .ok (styleName inside :: opened)

/-- What pieces of markup show while some styles are open. -/
def renderPieces (opened : List Text) : List Piece → Except Unmatched Text
  | [] => .ok []
  | .text s :: rest => do return showBrackets s ++ (← renderPieces opened rest)
  | .tag backslashes inside :: rest => do
    let before : Text := List.replicate (backslashes / 2) '\\'
    if backslashes % 2 = 1 then
      return before ++ tagText inside ++ (← renderPieces opened rest)
    else
      let opened ← switch inside opened
      return before ++ (← renderPieces opened rest)

/-- The text that markup shows. Without any bracket it is the markup itself. -/
def render (s : Text) : Except Unmatched Text :=
  if s.contains '[' then renderPieces [] (pieces s) else .ok s

/-- Markup in a style. -/
def styled (style : Text) (s : Text) : Text :=
  tagText style ++ s ++ tagText ('/' :: style)

end KeyAudit.Markup
