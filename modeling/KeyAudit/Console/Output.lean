import KeyAudit.Console.Markup
import KeyAudit.Text.Unencodable
import KeyAudit.Text.Width

/-!
# Writing to the console

What is written to the console comes in pieces: lines of markup, and texts that are
written as they are. Lines are not wrapped, whatever would move the cursor is dropped
from them, and their tabs become spaces. A piece is written as a whole or not at all,
as a text that cannot be encoded cannot be written.

* `Output.write` gives what a piece puts on the console;
* `writeAll` writes pieces up to the first that cannot be written.
-/

namespace KeyAudit.Console

/-- A piece that is written to the console. -/
inductive Output
  /-- A line of markup. -/
  | line (markup : Text)
  /-- A text as it is. -/
  | verbatim (text : Text)
deriving Repr, DecidableEq

/-- Why a piece is not written. -/
inductive WriteError
  | unmatched (tag : Markup.Unmatched)
  /-- A line cannot be encoded. -/
  | unencodableLine (part : Text.Unencodable)
  /-- A text that is written as it is cannot be encoded. -/
  | unencodable (part : Text.Unencodable)
deriving Repr, DecidableEq

/-- What is advised when a line cannot be encoded. -/
def encodingAdvice : Text :=
  "\n*** You may need to add PYTHONIOENCODING=utf-8 to your environment ***"

/-- The wording of an error. -/
def WriteError.message : WriteError → Text
  | .unmatched tag => tag.message
  | .unencodableLine part => part.message ++ encodingAdvice
  | .unencodable part => part.message

/-- Whether a code point would move the cursor or ring a bell. -/
def isControl (c : CodePoint) : Bool :=
  let n := c.toNat
  n == 7 || n == 8 || n == 11 || n == 12 || n == 13

/-- A text as lines show it. -/
def layOut (s : Text) : Text :=
  Text.join "\n" ((Text.splitOn '\n' (s.filter fun c => !isControl c)).map Text.expandTabs)

/-- What a piece puts on the console. -/
def Output.write : Output → Except WriteError String
  | .line markup => do
    let shown ← (Markup.render markup).mapError .unmatched
    (Text.encode (layOut shown ++ "\n")).mapError .unencodableLine
  | .verbatim text => (Text.encode text).mapError .unencodable

/-- Writes pieces one after the other, up to the first that cannot be written. -/
def writeAll : List Output → String × Option WriteError
  | [] => ("", none)
  | piece :: rest =>
    match piece.write with
    | .error error => ("", some error)
    | .ok text =>
      let (more, error?) := writeAll rest
      (text ++ more, error?)

end KeyAudit.Console
