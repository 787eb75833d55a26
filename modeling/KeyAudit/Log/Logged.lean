import KeyAudit.Log.Record

/-!
# Work that is logged

The outcome of a piece of work together with the records that it leaves in the
log. Work may fail; the records that were made before stay.
-/

namespace KeyAudit

/-- The outcome of a piece of work, and its log records in order. -/
structure Logged (ε α : Type) where
  records : List Record
  outcome : Except ε α

namespace Logged

variable {ε α β : Type}

/-- Work that gives a value and leaves no record. -/
protected def pure (a : α) : Logged ε α := ⟨[], .ok a⟩

/-- Work that leaves a record. -/
def log (r : Record) : Logged ε Unit := ⟨[r], .ok ()⟩

/-- Work followed by more work, unless it fails. -/
protected def bind (w : Logged ε α) (f : α → Logged ε β) : Logged ε β :=
  match w.outcome with
  | .ok a => ⟨w.records ++ (f a).records, (f a).outcome⟩
  | .error e => ⟨w.records, .error e⟩

instance : Monad (Logged ε) where
  pure := Logged.pure
  bind := Logged.bind

/-- Work is its log and its outcome. -/
theorem eq_mk {w : Logged ε α} {outcome : Except ε α} (h : w.outcome = outcome) :
    w = ⟨w.records, outcome⟩ := by
  rw [← h]

/-- The log does not matter for the outcome of work in several parts. -/
@[simp] theorem outcome_bind (w : Logged ε α) (f : α → Logged ε β) :
    (w >>= f).outcome = w.outcome >>= fun a => (f a).outcome := by
  change (w.bind f).outcome = w.outcome.bind fun a => (f a).outcome
  unfold Logged.bind
  cases w.outcome with
  | ok a => rfl
  | error e => rfl

/-- Work that goes on adds its records to those before. -/
theorem records_bind_of_ok {w : Logged ε α} {a : α} (h : w.outcome = .ok a)
    (f : α → Logged ε β) : (w >>= f).records = w.records ++ (f a).records := by
  change (w.bind f).records = _
  rw [Logged.bind, h]

/-- Work that fails adds none. -/
theorem records_bind_of_error {w : Logged ε α} {e : ε} (h : w.outcome = .error e)
    (f : α → Logged ε β) : (w >>= f).records = w.records := by
  change (w.bind f).records = _
  rw [Logged.bind, h]

end Logged

end KeyAudit
