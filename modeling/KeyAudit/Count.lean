import KeyAudit.Log.Scene
import KeyAudit.Resource.File
import KeyAudit.Text.Search

/-!
# Counting keys

On how many lines of a project a key stands. A line that holds a key several
times counts once.

* `occurrences` walks the project and reads its files for the key;
* `LineIndex.build` reads the project once, for any number of keys, each of which
  `LineIndex.count` then counts in the lines that were read.

The files of a walk are settled when it begins. What they hold is read one after
the other, each in the scene as it is then.
-/

namespace KeyAudit

variable {σ : Type} [Scene σ]

/-- Why a count fails. -/
inductive CountError
  /-- A directory of the project cannot be listed. -/
  | unlistable (directory : Unlistable)
  /-- A file of the project cannot even be asked for. -/
  | inaccessible (error : AccessError)

/-- The number of lines that hold a key. -/
def countIn (key : Text) (lines : List Text) : Nat :=
  lines.countP fun line => Text.occurs key line

theorem countIn_append (key : Text) (lines more : List Text) :
    countIn key (lines ++ more) = countIn key lines + countIn key more :=
  List.countP_append

/-- Reads the files of a walk one after the other, and fails where the walk
    fails. Every file is handed to `step` as its lines. -/
def Walk.fold {α : Type} (w : Walk) (s : σ) (step : α → List Text → α) :
    α → Logged CountError α :=
  go w.files s
where
  /-- Reads the remaining files. -/
  go : List Path → σ → α → Logged CountError α
    | [], _, a =>
      match w.failure with
      | none => ⟨[], .ok a⟩
      | some directory =>
        if directory.error.isRefusal then ⟨[.unlistable directory], .error (.unlistable directory)⟩
        else ⟨[], .error (.inaccessible directory.error)⟩
    | p :: rest, s, a =>
      match (Scene.files s).lines p with
      | ⟨records, .ok lines⟩ =>
        let after := go rest (Scene.record s records) (step a lines)
        ⟨records ++ after.records, after.outcome⟩
      | ⟨records, .error error⟩ => ⟨records, .error (.inaccessible error)⟩

/-- The number of lines of the files of a project that hold a key. -/
def occurrences (s : σ) (options : WalkOptions) (project : Path) (key : Text) :
    Logged CountError Nat :=
  ((Scene.files s).walk options project).fold s (fun n lines => n + countIn key lines) 0

/-- The lines of the files of a project. -/
structure LineIndex where
  lines : List Text
  /-- How many files there are, with those that could not be read. -/
  files : Nat

namespace LineIndex

/-- Reads the files of a project. -/
def build (s : σ) (options : WalkOptions) (project : Path) : Logged CountError LineIndex :=
  ((Scene.files s).walk options project).fold s
    (fun index lines => ⟨index.lines ++ lines, index.files + 1⟩) ⟨[], 0⟩

/-- The number of lines that hold a key. -/
def count (index : LineIndex) (key : Text) : Nat :=
  countIn key index.lines

end LineIndex

end KeyAudit
