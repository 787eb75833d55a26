import Mathlib
import KeyAudit.Proofs.Audit.Trace
import KeyAudit.Proofs.Walk.Calls

/-!
# The limits of an interpreter

An interpreter gives up an audit when it is to write a number that has too many digits
(`Record.IsWritable`), and when its stack has no room for the next step of a walk. How many calls
of a walk it has room for (`FileSystem.step`) depends on what else is on the stack, and on what a
step calls in its turn; so the walks that exhaust the stack are a parameter, `exhausts`. An audit
that comes to none of these, and to no such number, is *within* the limits (`Config.IsWithin`).

* Only an audit that walks its project exhausts the stack: one that starts, and has an index to
  make or a key to count (`Config.Walks`). These are the audits that fail with the walk
  (`failure_trace_ne_none_iff`).
* The stack is not exhausted if it has room for as many calls as there are real directories
  (`length_calls_le_of_comesTo`).
* An audit that starts within the limits has a threshold that can be written
  (`IsWithin.threshold_lt`).
-/

open StateTransition (Reaches)

namespace KeyAudit

/-- No number in the wording of a record has too many digits to be written. -/
def Record.IsWritable (r : Record) : Prop :=
  ∀ n ∈ r.numbers, n.natAbs < 10 ^ Number.digitLimit

namespace Config

variable {exhausts : Walker → Prop} {c : Config} {fs : FileSystem}

/-- An audit walks its project: it starts, and has an index to make or a key to count. -/
def Walks (c : Config) (fs : FileSystem) : Prop :=
  c.obstacle? fs = .ok none ∧
    (c.useIndex = true ∨ fs.entriesAt c.reportEmptyValues c.source ≠ [])

/-- The walks under way that an audit comes to. -/
def ComesTo (c : Config) (fs : FileSystem) (w : Walker) : Prop :=
  c.Walks fs ∧ Reaches (fs.step c.walkOptions) (FileSystem.begin c.project ∅) w

/-- An audit is within the limits of an interpreter, whose stack some walks exhaust. -/
structure IsWithin (exhausts : Walker → Prop) (c : Config) (fs : FileSystem) : Prop where
  /-- All that is logged can be written. -/
  written : ∀ r ∈ (c.report fs).records, r.IsWritable
  /-- The stack has room for every walk. -/
  room : ∀ w, c.ComesTo fs w → ¬exhausts w

/-- An audit that starts fails if and only if it walks, and the walk fails. -/
theorem failure_trace_ne_none_iff (ho : c.obstacle? fs = .ok none) :
    (c.trace fs).failure ≠ none ↔ c.Walks fs ∧ (c.walk fs).failure ≠ none := by
  rcases trace_cases ho with ⟨hf, hw⟩ | ⟨u, hf, hw, hwalks⟩
  · refine iff_of_false (not_not_intro hf) ?_
    rintro ⟨⟨-, hwalks⟩, hfails⟩
    obtain ⟨hi, he⟩ := hw.resolve_left hfails
    rcases hwalks with hi' | he'
    · exact Bool.false_ne_true (hi.symm.trans hi')
    · exact he' he
  · rw [hf, hw]
    exact iff_of_true (Option.some_ne_none _) ⟨⟨ho, hwalks⟩, Option.some_ne_none _⟩

/-- An audit takes no more calls at a time than there are real directories. -/
theorem length_calls_le_of_comesTo {w : Walker} (h : c.ComesTo fs w) :
    w.calls.length ≤ {l | fs.hasDirectory l = true}.ncard :=
  ((FileSystem.UnderWay.begin fs c.walkOptions c.project).reaches h.2).length_calls_le

/-- The beginning of an audit is logged. -/
theorem started_mem_records (ho : c.obstacle? fs = .ok none) :
    .started c ∈ (c.report fs).records := by
  rw [report]
  simp only [Scene.files_fileSystem, ho]
  cases (c.trace fs).failure with
  | none => exact List.mem_cons_self
  | some failure =>
    cases failure with
    | unlistable directory => exact List.mem_cons_self
    | inaccessible error => exact List.mem_cons_self

/-- An audit that starts within the limits has a threshold that can be written. -/
theorem IsWithin.threshold_lt (h : c.IsWithin exhausts fs) (ho : c.obstacle? fs = .ok none) :
    c.threshold < 10 ^ Number.digitLimit :=
  h.written _ (started_mem_records ho) _ (List.mem_singleton.2 rfl)

end Config

end KeyAudit
