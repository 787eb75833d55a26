import KeyAudit.Log.Logged
import KeyAudit.Resource.Entry

/-!
# Lines and entries of files

The lines of a file are the pieces of its text between line feeds that are not
empty; nothing else ends a line. A file whose text cannot be had has no lines,
which leaves a warning in the log. Only a path that no system call takes is an
error.
-/

namespace KeyAudit

/-- The lines of a text. -/
def linesOf (text : Text) : List Text :=
  (Text.splitOn '\n' text).filter (· ≠ [])

/-- The lines on both sides of a line feed. -/
theorem linesOf_append (s t : Text) : linesOf (s ++ .char '\n' :: t) = linesOf s ++ linesOf t := by
  rw [linesOf, Text.splitOn_eq, List.splitOn_append_cons_self, List.filter_append,
    ← Text.splitOn_eq, ← Text.splitOn_eq]
  rfl

/-- A text without a line feed is a line, unless it is empty. -/
theorem linesOf_of_not_mem {s : Text} (h : CodePoint.char '\n' ∉ s) :
    linesOf s = [s].filter (· ≠ []) := by
  rw [linesOf, Text.splitOn_eq, List.splitOn_eq_singleton h]

namespace FileSystem

/-- The lines of a file. -/
def lines (fs : FileSystem) (p : Path) : Logged AccessError (List Text) :=
  match fs.text p with
  | .ok text => ⟨[], .ok (linesOf text)⟩
  | .error (.undecodable fault) => ⟨[.unreadable p (.undecodable fault)], .ok []⟩
  | .error (.inaccessible error) =>
    if error.isRefusal then ⟨[.unreadable p (.inaccessible error)], .ok []⟩
    else ⟨[], .error error⟩

/-- The entries of a resource file, in the order of its lines. -/
def resourceEntries (fs : FileSystem) (detect : Bool) (p : Path) :
    Logged AccessError (List Entry) :=
  do return (← fs.lines p).filterMap fun line => Entry.ofLine? detect line

end FileSystem

end KeyAudit
