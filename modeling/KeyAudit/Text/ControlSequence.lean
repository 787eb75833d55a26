import KeyAudit.Text.Basic

/-!
# Control sequences of terminals

A control sequence tells a terminal to move its cursor, to change colours and the
like. It is an escape character and a bracket, then parameters and intermediate
characters, and one final character. What goes elsewhere than to a terminal is
written without control sequences.
-/

namespace KeyAudit.Text

/-- Whether a code point is a parameter of a control sequence. -/
def isParameter (c : CodePoint) : Bool := c.isBetween '0' '?'

/-- Whether a code point may stand between the parameters and the end of a control
    sequence. -/
def isIntermediate (c : CodePoint) : Bool := c.isBetween ' ' '/'

/-- Whether a code point ends a control sequence. -/
def isFinal (c : CodePoint) : Bool := c.isBetween '@' '~'

/-- What follows a control sequence, whose bracket stands before a text. -/
def afterSequence? (s : Text) : Option Text :=
  match (s.dropWhile isParameter).dropWhile isIntermediate with
  | c :: rest => if isFinal c then some rest else none
  | [] => none

theorem length_dropWhile_le (p : CodePoint → Bool) (s : Text) :
    (s.dropWhile p).length ≤ s.length :=
  (List.dropWhile_sublist p).length_le

/-- What follows a control sequence is shorter than the sequence and what follows. -/
theorem length_afterSequence {s rest : Text} (h : afterSequence? s = some rest) :
    rest.length < s.length := by
  have h₁ := length_dropWhile_le isIntermediate (s.dropWhile isParameter)
  have h₂ := length_dropWhile_le isParameter s
  unfold afterSequence? at h
  split at h
  · rename_i c tail hs
    rw [hs, List.length_cons] at h₁
    split at h
    · cases h
      omega
    · contradiction
  · contradiction

/-- A text without its control sequences. -/
def dropSequences (s : Text) : Text :=
  match s with
  | .char '\x1b' :: .char '[' :: rest =>
    match _h : afterSequence? rest with
    | some after => dropSequences after
    | none => '\x1b' :: dropSequences ('[' :: rest)
  | c :: rest => c :: dropSequences rest
  | [] => []
termination_by s.length
decreasing_by
  · have := length_afterSequence _h
    simp only [List.length_cons]
    omega
  all_goals simp only [List.length_cons]; omega

end KeyAudit.Text
