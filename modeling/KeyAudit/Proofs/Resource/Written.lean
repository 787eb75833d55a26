import Mathlib
import KeyAudit.Proofs.Text.Utf8
import KeyAudit.Resource.File

/-!
# Reading resource files that have been written

A resource file is written line by line. A line assigns a value to a key, both of them
between quotes (`Assignment`), or it is a remark: blank, or something that begins otherwise
than with a quote (`Remark`). Blank space may stand around what a line holds.

Neither key nor value may hold an equals sign or end the line; anything else is allowed, for
which trimming might be too much and quotes not enough: quotes, semicolons and blank ends of
their own. Still the assignments are what is read again, each with its key and with whether
its value is empty, and nothing else is (`resourceEntries_written`).
-/

namespace KeyAudit.Resource

/-- Blank space within a line. -/
structure Gap where
  chars : List Char
  blank : ∀ c ∈ chars, Text.isBlank c = true
  unbroken : '\n' ∉ chars

/-- What may stand between the quotes of a key or a value. -/
structure Wording where
  chars : List Char
  noEquals : '=' ∉ chars
  unbroken : '\n' ∉ chars

/-- A key and its value, with the blank space around them. -/
structure Assignment where
  key : Wording
  value : Wording
  before : Gap
  afterKey : Gap
  beforeValue : Gap
  afterValue : Gap
  after : Gap

/-- A line that begins otherwise than with a quote, or is blank. -/
structure Remark where
  chars : List Char
  unbroken : '\n' ∉ chars
  unquoted : (Text.trim (Text.ofChars chars)).head? ≠ some (.char '"')

/-- A line of a resource file. -/
inductive Line
  | assignment (a : Assignment)
  | remark (r : Remark)

/-- A key or a value between its quotes. -/
def Wording.quoted (w : Wording) : List Char := '"' :: (w.chars ++ ['"'])

namespace Assignment

/-- The left side, from the key up to the equals sign. -/
def left (a : Assignment) : List Char := a.key.quoted ++ a.afterKey.chars

/-- The right side, from the equals sign up to the semicolon. -/
def right (a : Assignment) : List Char :=
  a.beforeValue.chars ++ (a.value.quoted ++ (a.afterValue.chars ++ [';']))

/-- The line that is written. -/
def chars (a : Assignment) : List Char :=
  a.before.chars ++ (a.left ++ '=' :: a.right) ++ a.after.chars

end Assignment

namespace Line

/-- The line that is written. -/
def chars : Line → List Char
  | assignment a => a.chars
  | remark r => r.chars

/-- The entry that is to be read. -/
def entry? (detect : Bool) : Line → Option Entry
  | assignment a => some ⟨Text.ofChars a.key.quoted, detect && a.value.chars.isEmpty⟩
  | remark _ => none

end Line

/-- The content of a file with some lines, the last of which may be ended or not. -/
def write (ended : Bool) : List Line → List Char
  | [] => []
  | [l] => l.chars ++ if ended then ['\n'] else []
  | l :: rest => l.chars ++ '\n' :: write ended rest

variable {detect : Bool}

/-! ## Single lines -/

theorem Gap.isBlank_of_mem {g : Gap} {c : CodePoint} (h : c ∈ Text.ofChars g.chars) :
    Text.isBlank c = true := by
  obtain ⟨c, hc, rfl⟩ := List.mem_map.1 h
  exact g.blank c hc

theorem Gap.equals_not_mem (g : Gap) : '=' ∉ g.chars := fun h =>
  absurd (g.blank '=' h) (by decide)

namespace Wording

variable (w : Wording)

/-- Whatever stands between them, a key or a value begins and ends with its quotes. -/
theorem head?_quoted : (Text.ofChars w.quoted).head? = some (CodePoint.char '"') := rfl

theorem getLast?_quoted : (Text.ofChars w.quoted).getLast? = some (CodePoint.char '"') :=
  List.getLast?_eq_some_iff.2 ⟨'"' :: Text.ofChars w.chars, by simp [quoted, Text.ofChars]⟩

/-- Nothing but the quotes is left of an empty value. -/
theorem quoted_eq_iff :
    Text.ofChars w.quoted = [.char '"', .char '"'] ↔ w.chars = [] := by
  simp [quoted, Text.ofChars]

/-- Trimming takes nothing off what stands between quotes. -/
theorem trim_quoted (before after : Gap) :
    Text.trim (Text.ofChars before.chars ++ Text.ofChars w.quoted ++ Text.ofChars after.chars) =
      Text.ofChars w.quoted :=
  Text.trimBy_between (fun _ => Gap.isBlank_of_mem) (fun _ => Gap.isBlank_of_mem) w.head?_quoted
    w.getLast?_quoted rfl rfl

end Wording

namespace Assignment

variable (a : Assignment)

theorem equals_not_mem_left : '=' ∉ a.left := by
  simp [left, Wording.quoted, a.key.noEquals, a.afterKey.equals_not_mem]

theorem equals_not_mem_right : '=' ∉ a.right := by
  simp [right, Wording.quoted, a.value.noEquals, a.beforeValue.equals_not_mem,
    a.afterValue.equals_not_mem]

theorem getLast?_sides :
    (Text.ofChars a.left ++ .char '=' :: Text.ofChars a.right).getLast? =
      some (CodePoint.char ';') :=
  List.getLast?_eq_some_iff.2 ⟨Text.ofChars (a.left ++ '=' :: (a.beforeValue.chars ++
    (a.value.quoted ++ a.afterValue.chars))), by simp [right, Text.ofChars]⟩

/-- Without its blank ends, the line is its two sides and the equals sign. -/
theorem trim_chars :
    Text.trim (Text.ofChars a.chars) = Text.ofChars a.left ++ .char '=' :: Text.ofChars a.right := by
  have h : Text.ofChars a.chars = Text.ofChars a.before.chars ++
      (Text.ofChars a.left ++ .char '=' :: Text.ofChars a.right) ++ Text.ofChars a.after.chars := by
    simp [chars, Text.ofChars]
  rw [h]
  exact Text.trimBy_between (fun _ => Gap.isBlank_of_mem) (fun _ => Gap.isBlank_of_mem) rfl
    a.getLast?_sides rfl rfl

theorem parts_sides :
    Entry.parts (Text.ofChars a.left ++ .char '=' :: Text.ofChars a.right) =
      [Text.ofChars a.left, Text.ofChars a.right] := by
  have hleft : CodePoint.char '=' ∉ Text.ofChars a.left := by
    simpa [Text.ofChars] using a.equals_not_mem_left
  have hright : CodePoint.char '=' ∉ Text.ofChars a.right := by
    simpa [Text.ofChars] using a.equals_not_mem_right
  rw [Entry.parts, Text.splitOn_eq, List.splitOn_append_cons_self_of_not_mem hleft,
    List.splitOn_eq_singleton hright]
  simp [left, right, Wording.quoted, Text.ofChars]

theorem isKeyValue_sides :
    Entry.isKeyValue (Text.ofChars a.left ++ .char '=' :: Text.ofChars a.right) = true :=
  Entry.isKeyValue_iff.2 ⟨rfl, a.getLast?_sides, by rw [parts_sides]; rfl⟩

theorem trim_left : Text.trim (Text.ofChars a.left) = Text.ofChars a.key.quoted := by
  have h := a.key.trim_quoted ⟨[], by simp, by simp⟩ a.afterKey
  simpa [left, Text.ofChars] using h

theorem isEmptyValue_right :
    Entry.isEmptyValue (Text.ofChars a.right) = a.value.chars.isEmpty := by
  -- Trimming takes off the blank space in front of the value, then the semicolon goes, and
  -- trimming again the blank space that stood before it.
  let ending : Text := Text.ofChars a.value.quoted ++ Text.ofChars a.afterValue.chars
  have hright : Text.ofChars a.right =
      Text.ofChars a.beforeValue.chars ++ (ending ++ [.char ';']) ++ [] := by
    simp [right, ending, Text.ofChars]
  have htrim : Text.trim (Text.ofChars a.right) = ending ++ [.char ';'] := by
    rw [hright]
    exact Text.trimBy_between (fun _ => Gap.isBlank_of_mem) (by simp) rfl List.getLast?_concat rfl rfl
  have hvalue : Text.trim ending = Text.ofChars a.value.quoted := by
    have h := a.value.trim_quoted ⟨[], by simp, by simp⟩ a.afterValue
    simpa [ending, Text.ofChars] using h
  rw [Bool.eq_iff_iff, Entry.isEmptyValue_iff, htrim, List.getLast?_concat, List.dropLast_concat,
    hvalue, a.value.quoted_eq_iff, List.isEmpty_iff]
  exact and_iff_right rfl

/-- The line of an assignment is an entry with its key, however the blank space is chosen. -/
theorem ofLine?_chars :
    Entry.ofLine? detect (Text.ofChars a.chars) =
      some ⟨Text.ofChars a.key.quoted, detect && a.value.chars.isEmpty⟩ := by
  have hquoted : Entry.isQuoted (Text.ofChars a.key.quoted) = true :=
    Entry.isQuoted_iff.2 ⟨a.key.head?_quoted, a.key.getLast?_quoted⟩
  simp only [Entry.ofLine?, a.trim_chars, a.isKeyValue_sides, a.parts_sides, a.trim_left, hquoted,
    a.isEmptyValue_right, if_true]

end Assignment

theorem Line.unbroken (l : Line) : CodePoint.char '\n' ∉ Text.ofChars l.chars := by
  cases l with
  | remark r => simpa [chars, Text.ofChars] using r.unbroken
  | assignment a =>
    simp [chars, Assignment.chars, Assignment.left, Assignment.right, Wording.quoted, Text.ofChars,
      a.key.unbroken, a.value.unbroken, a.before.unbroken, a.afterKey.unbroken,
      a.beforeValue.unbroken, a.afterValue.unbroken, a.after.unbroken]

/-- A remark is no entry. -/
theorem ofLine?_remark (r : Remark) : Entry.ofLine? detect (Text.ofChars r.chars) = none := by
  have h : ¬Entry.isKeyValue (Text.trim (Text.ofChars r.chars)) = true := fun h =>
    r.unquoted (Entry.isKeyValue_iff.1 h).1
  rw [Entry.ofLine?, if_neg h]

/-- A line is read as its entry, if it has one. -/
theorem filterMap_linesOf (l : Line) :
    (linesOf (Text.ofChars l.chars)).filterMap (Entry.ofLine? detect) =
      (l.entry? detect).toList := by
  have hline : Entry.ofLine? detect (Text.ofChars l.chars) = l.entry? detect := by
    cases l with
    | assignment a => exact a.ofLine?_chars
    | remark r => exact ofLine?_remark r
  rw [linesOf_of_not_mem l.unbroken, ← hline]
  by_cases hempty : Text.ofChars l.chars = []
  · rw [hempty]
    rfl
  · rw [List.filter_cons_of_pos (by simpa using hempty), List.filter_nil]
    cases h : Entry.ofLine? detect (Text.ofChars l.chars) with
    | none => exact List.filterMap_cons_none h
    | some e => exact List.filterMap_cons_some h

/-! ## Files -/

/-- The lines that have been written are read one by one, whether the last one is ended or
    not. -/
theorem filterMap_linesOf_write (ended : Bool) (lines : List Line) :
    (linesOf (Text.ofChars (write ended lines))).filterMap (Entry.ofLine? detect) =
      lines.filterMap (Line.entry? detect) := by
  have hcons : ∀ (l : Line) (rest : List Char),
      (linesOf (Text.ofChars (l.chars ++ '\n' :: rest))).filterMap (Entry.ofLine? detect) =
        (l.entry? detect).toList ++
          (linesOf (Text.ofChars rest)).filterMap (Entry.ofLine? detect) := by
    intro l rest
    have h : Text.ofChars (l.chars ++ '\n' :: rest) =
        Text.ofChars l.chars ++ .char '\n' :: Text.ofChars rest := List.map_append
    rw [h, linesOf_append, List.filterMap_append, filterMap_linesOf]
  simp only [List.filterMap_eq_flatMap_toList (Line.entry? detect)]
  fun_induction write ended lines with
  | case1 => rfl
  | case2 l =>
    rw [List.flatMap_singleton]
    cases ended with
    | false => rw [if_neg Bool.false_ne_true, List.append_nil, filterMap_linesOf]
    | true =>
      -- What comes after the end of the last line is no line.
      rw [if_pos rfl, hcons]
      exact List.append_nil _
  | case3 l rest _ ih => rw [hcons, ih, List.flatMap_cons]

/-- Reading undoes writing: the entries of a file that holds some lines are those of its
    assignments, one for each, in their order. Each has the quoted key, and whether its value
    is empty if that is to be detected. -/
theorem resourceEntries_written (fs : FileSystem) (p : Path) (lines : List Line) (ended : Bool)
    (h : fs.content p = .ok (String.ofList (write ended lines)).toUTF8) (detect : Bool) :
    fs.resourceEntries detect p = ⟨[], .ok (lines.filterMap (Line.entry? detect))⟩ := by
  have htext : fs.text p = .ok (Text.ofChars (write ended lines)) := by
    rw [FileSystem.text, h]
    simp only [Text.Utf8.decode_toUTF8, String.toList_ofList]
  rw [FileSystem.resourceEntries, FileSystem.lines, htext, ← filterMap_linesOf_write ended]
  rfl

/-- No blank space. -/
def noGap : Gap := ⟨[], nofun, nofun⟩

/-- An assignment whose key and value look like parts of an entry themselves. -/
def crowded : Assignment where
  key := ⟨"\";".toList, by decide, by decide⟩
  value := ⟨" \"\"; ".toList, by decide, by decide⟩
  before := ⟨"\t".toList, List.all_eq_true.1 rfl, by decide⟩
  afterKey := noGap
  beforeValue := ⟨" ".toList, List.all_eq_true.1 rfl, by decide⟩
  afterValue := ⟨" ".toList, List.all_eq_true.1 rfl, by decide⟩
  after := ⟨"\r".toList, List.all_eq_true.1 rfl, by decide⟩

/-- An assignment without anything between the quotes. -/
def bare : Assignment :=
  ⟨⟨[], by decide, by decide⟩, ⟨[], by decide, by decide⟩, noGap, noGap, noGap, noGap, noGap⟩

/-- A comment and two assignments. -/
def sheet : List Line := [
  .remark ⟨"// \"a\" = \"b\";".toList, by decide, by decide⟩, .assignment crowded,
  .assignment bare]

/-- A file system whose only file holds them, the last line not being ended. -/
def sheetFiles : FileSystem where
  nodes := [(["s"], .file (String.ofList (write false sheet)).toUTF8)]
  denied := []
  workingDirectory := []
  distinct := by decide
  named := by decide

theorem resourceEntries_written_sheet :
    sheetFiles.content (Path.ofText "s") = .ok (String.ofList (write false sheet)).toUTF8 ∧
      sheetFiles.resourceEntries true (Path.ofText "s") =
        ⟨[], .ok [⟨"\"\";\"", false⟩, ⟨"\"\"", true⟩]⟩ := by
  have h : sheetFiles.content (Path.ofText "s") =
      .ok (String.ofList (write false sheet)).toUTF8 := by
    refine FileSystem.content_eq_ok_iff.2 ⟨by cbv, ["s"], by cbv, by decide, rfl⟩
  exact ⟨h, resourceEntries_written sheetFiles (Path.ofText "s") sheet false h true⟩

end KeyAudit.Resource
