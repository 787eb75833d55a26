import KeyAudit.Text.Basic

/-!
# Regular patterns

Patterns of texts, matched by taking one code point at a time off the pattern:
what is left of a pattern after a code point is a pattern again (`Pattern.after`),
and a text matches if what is left after its last code point may be empty. Patterns
that match nothing are dropped on the way, which keeps what is left small.
-/

namespace KeyAudit.Text

/-- A set of texts, built from sets of code points. -/
inductive Pattern
  /-- No text. -/
  | never
  /-- The empty text. -/
  | done
  /-- One code point of a set. -/
  | one (set : CodePoint → Bool)
  /-- A text of the first pattern, then one of the second. -/
  | andThen (p q : Pattern)
  /-- A text of either pattern. -/
  | either (p q : Pattern)
  /-- Any number of texts of the pattern, one after the other. -/
  | many (p : Pattern)

namespace Pattern

/-- Whether the empty text matches. -/
def mayEnd : Pattern → Bool
  | never => false
  | done => true
  | one _ => false
  | andThen p q => p.mayEnd && q.mayEnd
  | either p q => p.mayEnd || q.mayEnd
  | many _ => true

/-- One pattern after another, where one of them may match nothing at all. -/
def sequence : Pattern → Pattern → Pattern
  | never, _ => never
  | _, never => never
  | done, q => q
  | p, q => andThen p q

/-- Either of two patterns, where one of them may match nothing at all. -/
def choice : Pattern → Pattern → Pattern
  | never, q => q
  | p, never => p
  | p, q => either p q

/-- What a text has to go on with after the code point `c`. -/
def after (c : CodePoint) : Pattern → Pattern
  | never => never
  | done => never
  | one set => if set c then done else never
  | andThen p q =>
    let first := sequence (p.after c) q
    if p.mayEnd then choice first (q.after c) else first
  | either p q => choice (p.after c) (q.after c)
  | many p => sequence (p.after c) (many p)

/-- Whether a whole text matches. -/
def accepts (p : Pattern) (s : Text) : Bool :=
  (s.foldl (fun p c => p.after c) p).mayEnd

/-- The texts of all patterns of a list, one after the other. -/
def all (ps : List Pattern) : Pattern :=
  ps.foldr sequence done

/-- The texts of any pattern of a list. -/
def any (ps : List Pattern) : Pattern :=
  ps.foldr choice never

/-- A single given text. -/
def exactly (s : Text) : Pattern :=
  all (s.map fun c => one (· == c))

/-- One of the code points of a text. -/
def oneOf (s : Text) : Pattern :=
  one s.contains

/-- The empty text, or one of the pattern. -/
def optional (p : Pattern) : Pattern :=
  choice done p

/-- One or more texts of the pattern, one after the other. -/
def atLeastOne (p : Pattern) : Pattern :=
  sequence p (many p)

/-- One of the ten digits. -/
def digit : Pattern :=
  one (CodePoint.isBetween '0' '9')

end Pattern

end KeyAudit.Text
