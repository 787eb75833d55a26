import Mathlib
import KeyAudit.Proofs.Audit.Complete

/-!
# What to report

Three settings tell an audit what to report: whether used keys and empty values are, and up
to which count a key is unused. They decide on nothing else. Whatever becomes of its walk,
an audit finds the same about the same entries (`Config.found`), and stops where it would
stop anyway (`Config.extent`). Two audits that differ in one of these settings report the
same but for this (`report_settings`):

* without used keys, the events are those with used keys, less these;
* without empty values, the events are those with empty values, less these;
* with a higher threshold, the keys with counts between the thresholds become unused, and
  the events stay the same in their keys, counts and order.
-/

namespace KeyAudit

/-- An outcome without the parts of some names. -/
def Outcome.without (names : List Text) (o : Outcome) : Outcome :=
  { o with output := o.output.filter fun member => !names.contains member.1 }

/-- What becomes of an event when the threshold is raised: its kind may change, which it
    does just for keys with counts between the thresholds. -/
structure Finding.Raised (low high : Nat) (f g : Finding) : Prop where
  key : g.key = f.key
  count : g.count = f.count
  kind_ne_iff : g.kind ≠ f.kind ↔ f.kind ≠ .emptyValue ∧ low < f.count ∧ f.count ≤ high
  kinds : g.kind ≠ f.kind → f.kind = .used ∧ g.kind = .unused

/-! ## Summaries -/

namespace Summary

variable {findings : List Finding}

/-- Whether used keys are kept makes no difference to what else a summary holds. -/
theorem foldl_add_of_not_verbose (s : Summary) (findings : List Finding) :
    findings.foldl (add false) s =
      { findings.foldl (add true) s with usedKeys := s.usedKeys } := by
  have hstep : ∀ (s : Summary) u f, ({ s with usedKeys := u }).add false f =
      { s.add true f with usedKeys := u } := fun s u f => by
    rw [add, add]
    cases f.kind <;> rfl
  induction findings using List.reverseRecOn with
  | nil => rfl
  | append_singleton findings f ih => rw [List.foldl_concat, List.foldl_concat, ih, hstep]

/-- Whether empty values are found makes no difference to what else a summary holds. -/
theorem foldl_add_filter (verbose : Bool) (s : Summary) (findings : List Finding) :
    (findings.filter fun f => f.kind ≠ .emptyValue).foldl (add verbose) s =
      { findings.foldl (add verbose) s with
        emptyValueKeys := s.emptyValueKeys, warnings := s.warnings } := by
  induction findings using List.reverseRecOn with
  | nil => rfl
  | append_singleton findings f ih =>
    rw [List.filter_append, List.foldl_append, List.foldl_concat, ih, List.filter_singleton, add]
    cases hk : f.kind with
    | emptyValue => rfl
    | unused => simp [add, hk]
    | used => simp [add, hk]

end Summary

namespace Ending

/-- What is left out of an outcome may be anything. -/
theorem without_usedKeys (e : Ending) (s : Summary) (usedKeys : List (Text × Int)) :
    (e.outcome { s with usedKeys }).without ["used_keys"] = (e.outcome s).without ["used_keys"] := by
  cases e <;> rfl

theorem without_warnings (e : Ending) (s : Summary) (emptyValueKeys warnings : List Text) :
    (e.outcome { s with emptyValueKeys, warnings }).without ["warnings", "empty_value_keys"] =
      (e.outcome s).without ["warnings", "empty_value_keys"] := by
  cases e <;> rfl

end Ending

/-! ## How far an audit gets -/

/-- How far an audit gets: the entries whose keys are counted, the one at which it stops, if
    there is one, and how it ends. -/
structure Extent where
  counted : List Entry
  uncounted? : Option Entry
  ending : Ending

namespace Extent

/-- If the walk is refused, an audit with an index stops before the first of its entries,
    and one without an index at this entry. -/
def ofEntries (failure : Option Unlistable) (indexed : Bool) (es : List Entry) : Extent :=
  match failure, indexed, es with
  | none, _, es => ⟨es, none, .complete⟩
  | some u, true, _ => ⟨[], none, .unlistable u.path⟩
  | some _, false, [] => ⟨[], none, .complete⟩
  | some u, false, e :: _ => ⟨[], some e, .unlistable u.path⟩

/-- What is found about the entries makes no difference to how far an audit gets. -/
theorem ofEntries_map (failure : Option Unlistable) (indexed : Bool) (es : List Entry)
    (f : Entry → Entry) :
    ofEntries failure indexed (es.map f) =
      ⟨(ofEntries failure indexed es).counted.map f,
        (ofEntries failure indexed es).uncounted?.map f, (ofEntries failure indexed es).ending⟩ := by
  cases failure with
  | none => rfl
  | some u =>
    cases indexed with
    | true => rfl
    | false => cases es <;> rfl

end Extent

namespace Config

/-- The same audit with used keys reported or not. -/
def withVerbose (c : Config) (verbose : Bool) : Config := { c with verbose }

/-- The same audit with empty values reported or not. -/
def withEmptyValues (c : Config) (reportEmptyValues : Bool) : Config :=
  { c with reportEmptyValues }

/-- The same audit with another threshold. -/
def withThreshold (c : Config) (threshold : Nat) : Config := { c with threshold }

variable {c c' : Config} {fs : FileSystem}

/-! ## What an audit finds in any case -/

/-- How far an audit gets that starts. -/
def extent (c : Config) (fs : FileSystem) : Extent :=
  .ofEntries (c.walk fs).failure c.useIndex (fs.entriesAt c.reportEmptyValues c.source)

/-- What an audit that starts finds. -/
def found (c : Config) (fs : FileSystem) : List Finding :=
  (c.extent fs).counted.flatMap (Entry.findings c (c.hits fs)) ++
    (c.extent fs).uncounted?.toList.flatMap Entry.warnings

theorem trace_of_start (ho : c.obstacle? fs = .ok none) :
    (c.trace fs).findings = c.found fs ∧
      ∀ s, (c.trace fs).ending s = .ok ((c.extent fs).ending.outcome s) := by
  obtain ⟨hsource, hproject⟩ := obstacle?_eq_none_iff.1 ho
  have hs := FileSystem.unusable?_of_isPresent hsource
  have hp := FileSystem.unusable?_of_isPresent hproject
  simp only [found, extent, Trace.ending]
  cases hw : (c.walk fs).failure with
  | none =>
    obtain ⟨hfindings, hfailure⟩ := trace_of_complete hs hw
    rw [hfailure]
    exact ⟨hfindings.trans (List.append_nil _).symm, fun _ => rfl⟩
  | some u =>
    cases hi : c.useIndex with
    | true =>
      obtain ⟨hfindings, hfailure⟩ := trace_of_failure_indexed hi hp hw
      rw [hfailure]
      exact ⟨hfindings, fun _ => rfl⟩
    | false =>
      cases he : fs.entriesAt c.reportEmptyValues c.source with
      | nil =>
        obtain ⟨hfindings, hfailure⟩ := trace_of_no_entries hi hs he
        rw [hfailure]
        exact ⟨hfindings, fun _ => rfl⟩
      | cons e es =>
        obtain ⟨hfindings, hfailure⟩ := trace_of_failure hi hs hp hw he
        rw [hfailure]
        exact ⟨hfindings.trans (List.append_nil _).symm, fun _ => rfl⟩

/-- Whatever becomes of its walk, an audit that starts reports what it finds, and ends with
    the summary of all of it. -/
theorem report_of_start (ho : c.obstacle? fs = .ok none) :
    (c.report fs).events = (c.found fs).filter c.reports ∧
      (c.report fs).outcome = .ok ((c.extent fs).ending.outcome
        ((c.found fs).foldl (Summary.add c.verbose) c.blankSummary)) := by
  obtain ⟨hfindings, hending⟩ := trace_of_start ho
  rw [events_report ho, outcome_report ho, hfindings, hending]
  exact ⟨rfl, rfl⟩

/-! ## Used keys -/

/-- Used keys are reported or not, and nothing else changes. -/
theorem report_verbose (c : Config) (fs : FileSystem) :
    ((c.withVerbose false).report fs).events =
        ((c.withVerbose true).report fs).events.filter (fun f : Finding => f.kind ≠ .used) ∧
      ((c.withVerbose false).report fs).outcome.map (Outcome.without ["used_keys"]) =
        ((c.withVerbose true).report fs).outcome.map (Outcome.without ["used_keys"]) := by
  by_cases ho : c.obstacle? fs = .ok none
  · obtain ⟨hevents, houtcome⟩ := @report_of_start (c.withVerbose false) fs ho
    obtain ⟨hevents', houtcome'⟩ := @report_of_start (c.withVerbose true) fs ho
    -- What is found does not depend on what is reported of it.
    have hfound : (c.withVerbose false).found fs = (c.withVerbose true).found fs := rfl
    have hextent : (c.withVerbose false).extent fs = (c.withVerbose true).extent fs := rfl
    constructor
    · rw [hevents, hevents', hfound, List.filter_filter]
      refine List.filter_congr fun f _ => ?_
      change (f.kind != .used || false) = (decide (f.kind ≠ .used) && (f.kind != .used || true))
      cases f.kind <;> rfl
    · rw [houtcome, houtcome', hfound, hextent]
      change Except.ok (Outcome.without _ (Ending.outcome _ (List.foldl (Summary.add false) _ _))) = _
      rw [Summary.foldl_add_of_not_verbose]
      exact congrArg Except.ok (Ending.without_usedKeys ..)
  · obtain ⟨hevents, hreport⟩ := @report_of_not_start (c.withVerbose true) fs
      (c.withVerbose false) rfl rfl ho
    rw [hreport, hevents]
    exact ⟨rfl, rfl⟩

/-! ## Empty values -/

/-- An entry whose empty value is not to be found. -/
def ignoreValue (e : Entry) : Entry := { e with hasEmptyValue := false }

theorem extent_withEmptyValues (c : Config) (fs : FileSystem) :
    (c.withEmptyValues false).extent fs =
      ⟨((c.withEmptyValues true).extent fs).counted.map ignoreValue,
        ((c.withEmptyValues true).extent fs).uncounted?.map ignoreValue,
        ((c.withEmptyValues true).extent fs).ending⟩ := by
  have hentries : fs.entriesAt false c.source = (fs.entriesAt true c.source).map ignoreValue :=
    fs.entriesAt_eq_map false c.source
  exact (congrArg (Extent.ofEntries _ _) hentries).trans (Extent.ofEntries_map ..)

theorem kind_verdict_ne (c : Config) (key : Text) (count : Nat) :
    (c.verdict key count).kind ≠ .emptyValue := by
  rw [verdict]
  split
  · exact FindingKind.noConfusion
  · exact FindingKind.noConfusion

/-- Without empty values, an audit finds the same but for these. -/
theorem found_withEmptyValues (c : Config) (fs : FileSystem) :
    (c.withEmptyValues false).found fs =
      ((c.withEmptyValues true).found fs).filter fun f => f.kind ≠ .emptyValue := by
  have hwarnings : ∀ e : Entry, e.warnings.filter (fun f => f.kind ≠ .emptyValue) = [] := fun e =>
    List.filter_eq_nil_iff.2 fun f hf => by simp [Entry.kind_of_mem_warnings hf]
  have hfindings : ∀ e, (ignoreValue e).findings c (c.hits fs) =
      (e.findings c (c.hits fs)).filter fun f => f.kind ≠ .emptyValue := fun e => by
    rw [Entry.findings, Entry.findings, List.filter_append, hwarnings, List.filter_singleton,
      decide_eq_true (c.kind_verdict_ne _ _)]
    rfl
  have hcounted : ((c.withEmptyValues false).extent fs).counted.flatMap
      (Entry.findings c (c.hits fs)) = (((c.withEmptyValues true).extent fs).counted.flatMap
        (Entry.findings c (c.hits fs))).filter fun f => f.kind ≠ .emptyValue := by
    rw [extent_withEmptyValues, List.flatMap_map, List.filter_flatMap]
    exact congrArg (List.flatMap · _) (funext hfindings)
  have huncounted : ((c.withEmptyValues false).extent fs).uncounted?.toList.flatMap Entry.warnings =
      (((c.withEmptyValues true).extent fs).uncounted?.toList.flatMap Entry.warnings).filter
        fun f => f.kind ≠ .emptyValue := by
    rw [extent_withEmptyValues, Option.toList_map, List.flatMap_map, List.filter_flatMap]
    exact congrArg (List.flatMap · _) (funext fun e => (hwarnings e).symm)
  rw [found, found, List.filter_append]
  exact congrArg₂ _ hcounted huncounted

/-- Empty values are reported or not, and nothing else changes. -/
theorem report_emptyValues (c : Config) (fs : FileSystem) :
    ((c.withEmptyValues false).report fs).events =
        ((c.withEmptyValues true).report fs).events.filter
          (fun f : Finding => f.kind ≠ .emptyValue) ∧
      ((c.withEmptyValues false).report fs).outcome.map
          (Outcome.without ["warnings", "empty_value_keys"]) =
        ((c.withEmptyValues true).report fs).outcome.map
          (Outcome.without ["warnings", "empty_value_keys"]) := by
  by_cases ho : c.obstacle? fs = .ok none
  · obtain ⟨hevents, houtcome⟩ := @report_of_start (c.withEmptyValues false) fs ho
    obtain ⟨hevents', houtcome'⟩ := @report_of_start (c.withEmptyValues true) fs ho
    constructor
    · rw [hevents, hevents', found_withEmptyValues, List.filter_filter, List.filter_filter]
      exact List.filter_congr fun f _ => Bool.and_comm _ _
    · rw [houtcome, houtcome', found_withEmptyValues, extent_withEmptyValues,
        Summary.foldl_add_filter]
      exact congrArg Except.ok (Ending.without_warnings ..)
  · obtain ⟨hevents, hreport⟩ := @report_of_not_start (c.withEmptyValues true) fs
      (c.withEmptyValues false) rfl rfl ho
    rw [hreport, hevents]
    exact ⟨rfl, rfl⟩

/-! ## Thresholds -/

variable {low high : Nat}

/-- Nothing changes about an empty value. -/
theorem raised_of_emptyValue {f : Finding} (h : f.kind = .emptyValue) : f.Raised low high f where
  key := rfl
  count := rfl
  kind_ne_iff := iff_of_false (fun hne => hne rfl) fun hne => hne.1 h
  kinds hne := absurd rfl hne

/-- A verdict changes if the count lies between the thresholds. -/
theorem raised_verdict (c : Config) (key : Text) (count : Nat) (h : low ≤ high) :
    ((c.withThreshold low).verdict key count).Raised low high
      ((c.withThreshold high).verdict key count) := by
  have hlow : (c.withThreshold low).verdict key count =
      ⟨if count ≤ low then .unused else .used, key, count⟩ := rfl
  have hhigh : (c.withThreshold high).verdict key count =
      ⟨if count ≤ high then .unused else .used, key, count⟩ := rfl
  rw [hlow, hhigh]
  by_cases hcl : count ≤ low
  · rw [if_pos hcl, if_pos (hcl.trans h)]
    exact ⟨rfl, rfl, iff_of_false (fun hne => hne rfl) fun hne =>
      absurd (Int.ofNat_lt.1 hne.2.1) (Nat.not_lt.2 hcl), fun hne => absurd rfl hne⟩
  · have hlt := Int.ofNat_lt.2 (Nat.lt_of_not_le hcl)
    by_cases hch : count ≤ high
    · rw [if_neg hcl, if_pos hch]
      exact ⟨rfl, rfl, iff_of_true FindingKind.noConfusion
        ⟨FindingKind.noConfusion, hlt, Int.ofNat_le.2 hch⟩, fun _ => ⟨rfl, rfl⟩⟩
    · rw [if_neg hcl, if_neg hch]
      exact ⟨rfl, rfl, iff_of_false (fun hne => hne rfl) fun hne =>
        hch (Int.ofNat_le.1 hne.2.2), fun hne => absurd rfl hne⟩

/-- With a higher threshold, an audit finds the same in the same order, some of it raised. -/
theorem found_withThreshold (c : Config) (fs : FileSystem) (h : low ≤ high) :
    List.Forall₂ (Finding.Raised low high) ((c.withThreshold low).found fs)
      ((c.withThreshold high).found fs) := by
  have hwarnings : ∀ e : Entry, List.Forall₂ (Finding.Raised low high) e.warnings e.warnings :=
    fun e => List.forall₂_same.2 fun f hf => raised_of_emptyValue (Entry.kind_of_mem_warnings hf)
  have hfindings : ∀ e : Entry, List.Forall₂ (Finding.Raised low high)
      (e.findings (c.withThreshold low) (c.hits fs))
      (e.findings (c.withThreshold high) (c.hits fs)) := fun e =>
    List.rel_append (hwarnings e) (.cons (c.raised_verdict e.key _ h) .nil)
  have hsame : ∀ {f g : Entry → List Finding},
      (∀ e, List.Forall₂ (Finding.Raised low high) (f e) (g e)) →
      ∀ es : List Entry, List.Forall₂ (Finding.Raised low high) (es.flatMap f) (es.flatMap g) :=
    fun hfg es => List.rel_flatMap (List.forall₂_same.2 fun _ _ => rfl : List.Forall₂ Eq es es)
      fun e _ he => he ▸ hfg e
  exact List.rel_append (hsame hfindings _) (hsame hwarnings _)

/-- With a higher threshold, the events stay the same in their order, some of them raised. -/
theorem report_threshold (c : Config) (fs : FileSystem) (h : low ≤ high) :
    List.Forall₂ (Finding.Raised low high)
      (((c.withVerbose true).withThreshold low).report fs).events
      (((c.withVerbose true).withThreshold high).report fs).events := by
  have hall : ∀ threshold, ∀ f, ((c.withVerbose true).withThreshold threshold).reports f = true :=
    fun _ _ => Bool.or_true _
  by_cases ho : c.obstacle? fs = .ok none
  · obtain ⟨hevents, -⟩ := @report_of_start ((c.withVerbose true).withThreshold low) fs ho
    obtain ⟨hevents', -⟩ := @report_of_start ((c.withVerbose true).withThreshold high) fs ho
    rw [hevents, hevents', List.filter_eq_self.2 fun f _ => hall low f,
      List.filter_eq_self.2 fun f _ => hall high f]
    exact found_withThreshold _ fs h
  · obtain ⟨hevents, hreport⟩ := @report_of_not_start ((c.withVerbose true).withThreshold low) fs
      ((c.withVerbose true).withThreshold high) rfl rfl ho
    rw [hreport, hevents]
    exact .nil

/-! ## Settings -/

/-- What the settings change that tell an audit what to report, however it ends. Without
    used keys or without empty values, exactly these are missing from the events, and what
    collects them from the output. With a higher threshold, the keys with counts between
    the two become unused. -/
theorem report_settings (c : Config) (fs : FileSystem) :
    (((c.withVerbose false).report fs).events =
        ((c.withVerbose true).report fs).events.filter (fun f : Finding => f.kind ≠ .used) ∧
      ((c.withVerbose false).report fs).outcome.map (Outcome.without ["used_keys"]) =
        ((c.withVerbose true).report fs).outcome.map (Outcome.without ["used_keys"])) ∧
    (((c.withEmptyValues false).report fs).events =
        ((c.withEmptyValues true).report fs).events.filter
          (fun f : Finding => f.kind ≠ .emptyValue) ∧
      ((c.withEmptyValues false).report fs).outcome.map
          (Outcome.without ["warnings", "empty_value_keys"]) =
        ((c.withEmptyValues true).report fs).outcome.map
          (Outcome.without ["warnings", "empty_value_keys"])) ∧
    ∀ low high, low ≤ high → List.Forall₂ (Finding.Raised low high)
      (((c.withVerbose true).withThreshold low).report fs).events
      (((c.withVerbose true).withThreshold high).report fs).events :=
  ⟨report_verbose c fs, report_emptyValues c fs, fun _ _ h => report_threshold c fs h⟩

/-- A key that is found twice is unused from a threshold of two on. -/
theorem report_settings_listed :
    List.Forall₂ (Finding.Raised 1 2)
        (((listedConfig.withVerbose true).withThreshold 1).report listed).events
        (((listedConfig.withVerbose true).withThreshold 2).report listed).events ∧
      (⟨.used, "\"a\"", 2⟩ : Finding) ∈
        (((listedConfig.withVerbose true).withThreshold 1).report listed).events ∧
      (⟨.unused, "\"a\"", 2⟩ : Finding) ∈
        (((listedConfig.withVerbose true).withThreshold 2).report listed).events := by
  obtain ⟨-, -, hraised⟩ := report_settings listedConfig listed
  refine ⟨hraised 1 2 (by decide), ?_, ?_⟩
  · have hevents : (((listedConfig.withVerbose true).withThreshold 1).report listed).events = [
        ⟨.emptyValue, "\"a\"", 0⟩, ⟨.used, "\"a\"", 2⟩, ⟨.unused, "\"b\"", 1⟩,
        ⟨.used, "\"a\"", 2⟩] := by cbv
    rw [hevents]
    decide
  · have hevents : (((listedConfig.withVerbose true).withThreshold 2).report listed).events = [
        ⟨.emptyValue, "\"a\"", 0⟩, ⟨.unused, "\"a\"", 2⟩, ⟨.unused, "\"b\"", 1⟩,
        ⟨.unused, "\"a\"", 2⟩] := by cbv
    rw [hevents]
    decide

end Config

end KeyAudit
