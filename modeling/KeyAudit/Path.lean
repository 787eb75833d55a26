import KeyAudit.Text.Case
import KeyAudit.Text.Split

/-!
# Paths

A path is the place where it starts and the names on the way from there. Reading
a path drops what makes no difference: repeated and final slashes and the name
`.`; the name `..` stays, as what it means depends on the file system. Paths that
begin with exactly two slashes keep them.

* `Path.toText` is the text of a path, with `.` for the path without names;
* `Path.suffix` is the extension of the last name with its dot, and empty for
  names such as `.profile` or `notes.`, where the only dot is at an end.
-/

namespace KeyAudit

/-- Where a path starts. -/
inductive Anchor
  | workingDirectory
  | top
  | doubleTop
deriving Repr, DecidableEq

/-- A path in a file system. -/
structure Path where
  anchor : Anchor
  names : List Text
deriving Repr, DecidableEq

namespace Path

/-- The pieces of a text between slashes. -/
def pieces (s : Text) : List Text :=
  Text.splitOn '/' s

/-- Where the path written as `s` starts. -/
def anchorOf (s : Text) : Anchor :=
  match s with
  | .char '/' :: .char '/' :: .char '/' :: _ => .top
  | .char '/' :: .char '/' :: _ => .doubleTop
  | .char '/' :: _ => .top
  | _ => .workingDirectory

/-- Reads a path. -/
def ofText (s : Text) : Path where
  anchor := anchorOf s
  names := (pieces s).filter fun name => name ≠ "" && name ≠ "."

/-- The text of a path. -/
def toText (p : Path) : Text :=
  let names := Text.join "/" p.names
  match p.anchor with
  | .workingDirectory => if p.names.isEmpty then "." else names
  | .top => "/" ++ names
  | .doubleTop => "//" ++ names

/-- The path of an entry of a directory. -/
def child (p : Path) (name : Text) : Path :=
  { p with names := p.names ++ [name] }

theorem mem_toText_of_mem_names {p : Path} {name : Text} {c : CodePoint} (h : name ∈ p.names)
    (hc : c ∈ name) : c ∈ p.toText := by
  have hj : c ∈ Text.join "/" p.names := Text.mem_join_of_mem h hc
  unfold toText
  cases p.anchor with
  | workingDirectory =>
    cases hn : p.names with
    | nil => simp [hn] at h
    | cons first rest => simpa [hn] using hj
  | top => exact List.mem_append_right _ hj
  | doubleTop => exact List.mem_append_right _ hj

/-- The text of an entry's path has nothing but that of its directory, slashes and its
    name. -/
theorem mem_toText_child {p : Path} {name : Text} {c : CodePoint}
    (h : c ∈ (p.child name).toText) : c ∈ p.toText ∨ c = '/' ∨ c ∈ name := by
  have hj : c ∈ Text.join "/" (p.names ++ [name]) → c ∈ p.toText ∨ c = '/' ∨ c ∈ name := by
    intro hj
    rcases Text.mem_join hj with hc | ⟨t, ht, hc⟩
    · exact .inr (.inl (List.mem_singleton.1 hc))
    · rcases List.mem_append.1 ht with ht | ht
      · exact .inl (mem_toText_of_mem_names ht hc)
      · exact .inr (.inr (List.mem_singleton.1 ht ▸ hc))
  unfold toText child at h
  cases ha : p.anchor with
  | workingDirectory => exact hj (by simpa [ha] using h)
  | top =>
    simp only [ha, List.mem_append] at h
    rcases h with h | h
    · exact .inr (.inl (List.mem_singleton.1 h))
    · exact hj h
  | doubleTop =>
    simp only [ha, List.mem_append] at h
    rcases h with h | h
    · exact .inr (.inl ((List.mem_cons.1 h).elim id List.mem_singleton.1))
    · exact hj h

/-- The path `q` as seen from the directory `p`. -/
def join (p q : Path) : Path :=
  match q.anchor with
  | .workingDirectory => { p with names := p.names ++ q.names }
  | _ => q

/-- The path without its last name. -/
def parent (p : Path) : Path :=
  { p with names := p.names.dropLast }

/-- The extension of a name with its dot: what follows the last dot, unless that
    dot is the first or the last character. -/
def nameSuffix (name : Text) : Text :=
  let tail := Text.takeUntil '.' name.reverse
  if tail.length + 1 < name.length ∧ tail ≠ [] then '.' :: tail.reverse else []

/-- The extension of the last name of a path with its dot. -/
def suffix (p : Path) : Text :=
  match p.names.getLast? with
  | some name => nameSuffix name
  | none => []

/-- Whether a path has one of some extensions, which are given in lower case and
    without their dots. Without any extension to choose from every path has. -/
def hasExtension (extensions : List Text) (p : Path) : Bool :=
  extensions.isEmpty || extensions.contains (Text.lower (p.suffix.drop 1))

@[simp] theorem parent_child (p : Path) (name : Text) : (p.child name).parent = p := by
  simp [parent, child]

/-- The extension of an entry is that of its name. -/
theorem hasExtension_child (extensions : List Text) (p : Path) (name : Text) :
    (p.child name).hasExtension extensions =
      (extensions.isEmpty || extensions.contains (Text.lower ((nameSuffix name).drop 1))) := by
  simp [hasExtension, suffix, child]

end Path

end KeyAudit
