import KeyAudit.Text.Basic

/-!
# The version of the program

The version is known if the program is installed. It is looked up once; the first
answer is kept.
-/

namespace KeyAudit.Version

/-- The version of an installed program. -/
def current : Text := "0.2.0"

/-- What is said if the version is not known. -/
def unknown : Text := "unknown"

/-- The version as seen with an earlier answer, if there is one. -/
def lookUp (installed : Bool) (earlier : Option Text) : Text :=
  earlier.getD (if installed then current else unknown)

end KeyAudit.Version
