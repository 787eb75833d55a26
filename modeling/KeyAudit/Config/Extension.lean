import KeyAudit.Text.Blank
import KeyAudit.Text.Case
import KeyAudit.Text.Split

/-!
# File extensions

Extensions are given as texts, each of which may hold several, separated by
commas. An extension is kept in a normal form: without blank ends, in lower case
and without one dot in front; what is empty then is dropped. The extensions of a
configuration are a set, kept as an increasing list of distinct texts.
-/

namespace KeyAudit.Extension

/-- The normal form of an extension. -/
def normalize (s : Text) : Text :=
  match Text.lower (Text.trim s) with
  | .char '.' :: rest => rest
  | s => s

/-- The normal forms of the extensions in a text. -/
def ofText (s : Text) : List Text :=
  ((Text.splitOn ',' s).map normalize).filter (· ≠ [])

/-- Puts a text into an increasing list, unless it is there. -/
def insert (s : Text) : List Text → List Text
  | [] => [s]
  | t :: rest =>
    if s < t then s :: t :: rest
    else if s = t then t :: rest
    else t :: insert s rest

/-- The set of some texts, as an increasing list. -/
def setOf (texts : List Text) : List Text :=
  texts.foldr insert []

/-- The set of the extensions in some texts. -/
def ofTexts (texts : List Text) : List Text :=
  setOf (texts.flatMap ofText)

end KeyAudit.Extension
