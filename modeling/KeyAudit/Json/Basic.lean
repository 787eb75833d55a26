import KeyAudit.Number.Binary64
import KeyAudit.Text.Basic

/-!
# JSON values

The values that configuration files hold and summaries are made of. Objects keep
the order of their members, and integers are told apart from floating point
numbers: `1`, `1.0` and `1e0` are an integer and twice the same other number.
-/

namespace KeyAudit

/-- A JSON value. -/
inductive Json
  | null
  | bool (b : Bool)
  | int (n : Int)
  | float (x : Binary64)
  | str (s : Text)
  | arr (items : List Json)
  | obj (members : List (Text × Json))
deriving Inhabited

namespace Json

/-- The members of an object; a value of another kind has none. -/
def members : Json → List (Text × Json)
  | obj ms => ms
  | _ => []

/-- The items of an array; a value of another kind has none. -/
def items : Json → List Json
  | arr js => js
  | _ => []

/-- The value of a member of an object. -/
def member? (name : Text) (j : Json) : Option Json :=
  j.members.lookup name

/-- The text of a string value. -/
def string? : Json → Option Text
  | str s => some s
  | _ => none

end Json

end KeyAudit
