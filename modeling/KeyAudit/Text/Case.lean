import KeyAudit.Text.Basic
import KeyAudit.Text.Tables.Cased
import KeyAudit.Text.Tables.LowerCase

/-!
# Lower case

The lower case of a text, by the full rules of Unicode. Almost every character
is mapped on its own; only the Greek capital sigma looks at its surroundings: at
the end of a word it becomes the final sigma. The capital I with a dot above
becomes two characters, so a text may grow.
-/

namespace KeyAudit.Text

/-- Whether a number lies in one of some ranges. -/
def inRanges (ranges : List (Nat × Nat)) (n : Nat) : Bool :=
  ranges.any fun r => r.1 ≤ n && n ≤ r.2

/-- Whether a code point is one of the range. -/
def Tables.CaseRange.contains (r : Tables.CaseRange) (n : Nat) : Bool :=
  r.first ≤ n && n ≤ r.last && (n - r.first) % r.step == 0

/-- The lower case of a code point that does not depend on its surroundings. -/
def lowerChar (c : CodePoint) : Text :=
  if c = 'İ' then ['i', '\u0307']
  else match Tables.upperCase.find? (·.contains c.toNat) with
    | some r => [.char (Char.ofNat (c.toNat + r.distance).toNat)]
    | none => [c]

/-- Whether a code point is skipped in the search for a neighbouring letter. -/
def isCaseIgnorable (c : CodePoint) : Bool :=
  inRanges Tables.caseIgnorable c.toNat

/-- Whether a letter with case comes first among the code points of a text that
    are not skipped. -/
def startsCased (s : Text) : Bool :=
  match s.dropWhile isCaseIgnorable with
  | [] => false
  | c :: _ => inRanges Tables.cased c.toNat

/-- The lower case of a capital sigma between `before`, read backwards, and
    `after`: final if a letter comes before it and none after it. -/
def lowerSigma (before after : Text) : CodePoint :=
  if startsCased before && !startsCased after then 'ς' else 'σ'

/-- The lower case of the rest of a text that has `before`, read backwards, in
    front of it. -/
def lowerFrom (before : Text) : Text → Text
  | [] => []
  | c :: rest =>
    (if c = 'Σ' then [lowerSigma before rest] else lowerChar c) ++ lowerFrom (c :: before) rest

/-- The lower case of a text. -/
def lower (s : Text) : Text :=
  lowerFrom [] s

end KeyAudit.Text
