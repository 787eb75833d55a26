import KeyAudit.Audit.Summary
import KeyAudit.Count

/-!
# Checking keys

An audit goes through the entries of a resource file in their order. For an entry
whose value is empty it finds that first; then it counts the lines of the project
that hold the key and finds the key unused, if there are as many as the threshold
or fewer, or else used. These are the checks of an entry (`Entry.checks`).

* `Check.perform` carries out one check;
* `Config.trace` carries out all checks of an audit up to the first that fails.
-/

namespace KeyAudit

/-- Something to find out about a key. -/
inductive Check
  /-- The value of the key is empty. -/
  | emptyValue (key : Text)
  /-- The key is used or not. -/
  | usage (key : Text)
deriving Repr, DecidableEq

/-- The checks of an entry. -/
def Entry.checks (e : Entry) : List Check :=
  if e.hasEmptyValue then [.emptyValue e.key, .usage e.key] else [.usage e.key]

/-- How keys are counted. -/
inductive CountMethod
  /-- By reading the project for every key. -/
  | search
  /-- In the lines of the project, read beforehand. -/
  | index (lines : LineIndex)

variable {σ : Type} [Scene σ]

namespace Config

/-- The number of lines of the project that hold a key. -/
def count (c : Config) (s : σ) (method : CountMethod) (key : Text) :
    Logged CountError Nat :=
  match method with
  | .search => occurrences s c.walkOptions c.project key
  | .index lines => pure (lines.count key)

/-- The finding about a key that is found on a number of lines. -/
def verdict (c : Config) (key : Text) (count : Nat) : Finding :=
  ⟨if count ≤ c.threshold then .unused else .used, key, count⟩

/-- Whether a finding is reported. -/
def reports (c : Config) (f : Finding) : Bool :=
  f.kind != .used || c.verbose

end Config

/-- Carries out a check. -/
def Check.perform (s : σ) (c : Config) (method : CountMethod) :
    Check → Logged CountError Finding
  | .emptyValue key => pure ⟨.emptyValue, key, 0⟩
  | .usage key => do
    let count ← c.count s method key
    Logged.log (.counted key count)
    return c.verdict key count

/-- What carrying out checks finds, and what ends it early. -/
structure Trace where
  records : List Record
  findings : List Finding
  failure : Option CountError

namespace Trace

/-- The trace of nothing but a failure. -/
def failed (records : List Record) (failure : CountError) : Trace := ⟨records, [], some failure⟩

/-- More records in front of a trace. -/
def after (records : List Record) (t : Trace) : Trace := { t with records := records ++ t.records }

/-- A finding in front of a trace. -/
def found (f : Finding) (t : Trace) : Trace := { t with findings := f :: t.findings }

end Trace

/-- Carries out checks one after the other, up to the first that fails. -/
def performChecks (s : σ) (c : Config) (method : CountMethod) : List Check → Trace
  | [] => ⟨[], [], none⟩
  | check :: due =>
    match check.perform s c method with
    | ⟨records, .error error⟩ => .failed records error
    | ⟨records, .ok finding⟩ =>
      ((performChecks (Scene.record s records) c method due).found finding).after records

namespace Config

/-- Gets ready to count keys, which reads the project if there is to be an
    index. -/
def countMethod (c : Config) (s : σ) : Logged CountError CountMethod :=
  if c.useIndex then do
    let lines ← LineIndex.build s c.walkOptions c.project
    Logged.log (.indexed lines.lines.length lines.files)
    return .index lines
  else pure .search

/-- The entries of the resource file. -/
def entries (c : Config) (fs : FileSystem) : Logged CountError (List Entry) :=
  match fs.resourceEntries c.reportEmptyValues c.source with
  | ⟨records, .ok entries⟩ => ⟨records, .ok entries⟩
  | ⟨records, .error error⟩ => ⟨records, .error (.inaccessible error)⟩

/-- Gets ready to check keys: how they are counted, and all checks. -/
def prepare (c : Config) (s : σ) : Logged CountError (CountMethod × List Check) :=
  (c.countMethod s).andThen s fun s method => do
    let entries ← c.entries (Scene.files s)
    return (method, entries.flatMap Entry.checks)

/-- Checks all keys. -/
def trace (c : Config) (s : σ) : Trace :=
  match c.prepare s with
  | ⟨records, .error error⟩ => .failed records error
  | ⟨records, .ok (method, checks)⟩ =>
    (performChecks (Scene.record s records) c method checks).after records

end Config

end KeyAudit
