import Mathlib
import KeyAudit.Proofs.Audit.Stream

/-!
# Complete audits

What an audit reports whose walk does not fail, in terms of the entries of its resource
file and the number of lines of the project that hold their keys. It reports about one
entry after the other (`Entry.events`), and every finding goes into a summary. After each
entry this is the summary of the entries so far (`summaryOf_snoc`), in which a key has one
place and one count, however often it comes, while the empty values and the number of
checks are those of all entries. So at its end it is the summary of all entries
(`report_complete`).
-/

namespace KeyAudit

/-- The events about an entry: its value is empty, and its key is unused or, if these are
    to be reported, used. -/
def Entry.events (c : Config) (hits : Text → Nat) (e : Entry) : List Finding :=
  (if e.hasEmptyValue then [⟨.emptyValue, e.key, 0⟩] else []) ++
    if hits e.key ≤ c.threshold then [⟨.unused, e.key, hits e.key⟩]
    else if c.verbose then [⟨.used, e.key, hits e.key⟩] else []

/-- The keys of some entries, each once, in the order in which they first come. -/
def distinctKeys (es : List Entry) : List Text := (es.map Entry.key).eraseDups

/-- The distinct keys with some property, each with the number of lines that hold it. -/
def tally (hits : Text → Nat) (p : Text → Bool) (es : List Entry) : List (Text × Int) :=
  ((distinctKeys es).filter p).map fun key => (key, (hits key : Int))

/-- The summary of an audit that has checked some entries. -/
def Config.summaryOf (c : Config) (hits : Text → Nat) (es : List Entry) : Summary where
  errors := []
  warnings := (es.filter Entry.hasEmptyValue).map fun e => Finding.message ⟨.emptyValue, e.key, 0⟩
  source := c.source.toText
  project := c.project.toText
  keysChecked := es.length
  unusedKeys := tally hits (fun key => hits key ≤ c.threshold) es
  emptyValueKeys := (es.filter Entry.hasEmptyValue).map Entry.key
  usedKeys := if c.verbose then tally hits (fun key => c.threshold < hits key) es else []

variable {hits : Text → Nat} {p : Text → Bool} {es : List Entry} {e : Entry}

/-! ## Distinct keys -/

/-- Only a key that has not come before is new. -/
theorem distinctKeys_snoc (es : List Entry) (e : Entry) :
    distinctKeys (es ++ [e]) =
      if e.key ∈ distinctKeys es then distinctKeys es else distinctKeys es ++ [e.key] := by
  simp only [distinctKeys, List.mem_eraseDups]
  rw [List.map_append, List.eraseDups_append, List.map_singleton, List.cons_removeAll]
  by_cases h : e.key ∈ es.map Entry.key
  · simp [h]
  · simp [h, List.eraseDups_cons]

theorem nodup_distinctKeys (es : List Entry) : (distinctKeys es).Nodup := by
  induction es using List.reverseRecOn with
  | nil => exact List.nodup_nil
  | append_singleton es e ih =>
    rw [distinctKeys_snoc]
    split
    · exact ih
    · case isFalse h =>
        rw [← List.concat_eq_append]
        exact List.Nodup.concat h ih

/-- The keys of a tally are the keys of entries that have the property. -/
theorem map_fst_tally (hits : Text → Nat) (p : Text → Bool) (es : List Entry) :
    (tally hits p es).map Prod.fst = (distinctKeys es).filter p := by
  rw [tally, List.map_map]
  exact List.map_id _

/-- A key with the property is given its count. -/
theorem tally_snoc_of_pos (h : p e.key = true) :
    tally hits p (es ++ [e]) = assign e.key (hits e.key : Int) (tally hits p es) := by
  rw [tally, tally, distinctKeys_snoc]
  -- A key that is there already gets the count that it has.
  by_cases hk : e.key ∈ distinctKeys es
  · rw [if_pos hk]
    exact (assign_map_of_mem (fun key => (hits key : Int)) (List.mem_filter.2 ⟨hk, h⟩)).symm
  · rw [if_neg hk, List.filter_append, List.filter_singleton, h]
    exact (assign_map_of_not_mem (fun key => (hits key : Int))
      fun hk' => hk (List.mem_filter.1 hk').1).symm

/-- A key without the property is left out. -/
theorem tally_snoc_of_neg (h : p e.key = false) :
    tally hits p (es ++ [e]) = tally hits p es := by
  rw [tally, tally, distinctKeys_snoc]
  by_cases hk : e.key ∈ distinctKeys es
  · rw [if_pos hk]
  · rw [if_neg hk, List.filter_append, List.filter_singleton, h]
    simp

namespace Config

variable {c : Config} {fs : FileSystem}

/-! ## One entry after the other -/

/-- What is found about an entry makes the summary of the entries before it that of the
    entries up to it. -/
theorem summaryOf_snoc (c : Config) (hits : Text → Nat) (es : List Entry) (e : Entry) :
    (e.findings c hits).foldl (Summary.add c.verbose) (c.summaryOf hits es) =
      c.summaryOf hits (es ++ [e]) := by
  have hflagged : (es ++ [e]).filter Entry.hasEmptyValue =
      es.filter Entry.hasEmptyValue ++ [e].filter Entry.hasEmptyValue := List.filter_append ..
  have hmessages : e.warnings.map Finding.message =
      ([e].filter Entry.hasEmptyValue).map fun e => Finding.message ⟨.emptyValue, e.key, 0⟩ := by
    rw [Entry.warnings]
    cases hv : e.hasEmptyValue <;> simp [hv]
  have hkeys : e.warnings.map Finding.key = ([e].filter Entry.hasEmptyValue).map Entry.key := by
    rw [Entry.warnings]
    cases hv : e.hasEmptyValue <;> simp [hv]
  rw [Entry.findings, List.foldl_append, Summary.foldl_add_warnings _ _ fun f hf =>
    Entry.kind_of_mem_warnings hf, List.foldl_cons, List.foldl_nil, hmessages, hkeys]
  rw [summaryOf, summaryOf, hflagged, List.map_append, List.map_append, List.length_append, verdict]
  -- The key goes to one of the tallies, and the other one stays.
  by_cases hle : hits e.key ≤ c.threshold
  · rw [@tally_snoc_of_pos hits (fun key => hits key ≤ c.threshold) es e (decide_eq_true hle),
      @tally_snoc_of_neg hits (fun key => c.threshold < hits key) es e
        (decide_eq_false (Nat.not_lt.2 hle)), if_pos hle]
    rfl
  · rw [@tally_snoc_of_neg hits (fun key => hits key ≤ c.threshold) es e (decide_eq_false hle),
      @tally_snoc_of_pos hits (fun key => c.threshold < hits key) es e
        (decide_eq_true (Nat.lt_of_not_le hle)), if_neg hle]
    cases c.verbose
    · rfl
    · rfl

/-- What is found about some entries adds up to their summary. -/
theorem foldl_add_findings (c : Config) (hits : Text → Nat) (es : List Entry) :
    (es.flatMap (Entry.findings c hits)).foldl (Summary.add c.verbose) c.blankSummary =
      c.summaryOf hits es := by
  induction es using List.reverseRecOn with
  | nil =>
    rw [summaryOf]
    cases c.verbose
    · rfl
    · rfl
  | append_singleton es e ih =>
    rw [List.flatMap_append, List.foldl_append, ih, List.flatMap_singleton]
    exact summaryOf_snoc c hits es e

/-- The findings about an entry that are reported are its events. -/
theorem filter_reports_findings (c : Config) (hits : Text → Nat) (e : Entry) :
    (e.findings c hits).filter c.reports = e.events c hits := by
  have hwarnings : e.warnings.filter c.reports = e.warnings :=
    filter_reports_of_warnings c fun f hf => Entry.kind_of_mem_warnings hf
  rw [Entry.findings, Entry.events, List.filter_append, hwarnings, List.filter_singleton,
    verdict, reports]
  by_cases hle : hits e.key ≤ c.threshold
  · rw [if_pos hle, if_pos hle]
    rfl
  · rw [if_neg hle, if_neg hle]
    cases c.verbose
    · rfl
    · rfl

/-- No key is unused twice or used twice, or both. -/
theorem nodup_summaryOf (c : Config) (hits : Text → Nat) (es : List Entry) :
    ((c.summaryOf hits es).unusedKeys.map Prod.fst).Nodup ∧
      ((c.summaryOf hits es).usedKeys.map Prod.fst).Nodup ∧
      ((c.summaryOf hits es).unusedKeys.map Prod.fst).Disjoint
        ((c.summaryOf hits es).usedKeys.map Prod.fst) := by
  rw [summaryOf, map_fst_tally]
  refine ⟨(nodup_distinctKeys es).filter _, ?_, fun key hunused hused => ?_⟩
  · split
    · rw [map_fst_tally]
      exact (nodup_distinctKeys es).filter _
    · exact List.nodup_nil
  · split at hused
    · rw [map_fst_tally] at hused
      have hle := of_decide_eq_true (List.mem_filter.1 hunused).2
      have hlt := of_decide_eq_true (List.mem_filter.1 hused).2
      exact absurd hle (Nat.not_le.2 hlt)
    · exact absurd hused List.not_mem_nil

/-! ## Complete audits -/

/-- What an audit reports whose resource file and project are there and whose walk does
    not fail: the events of its entries, in their order, which a run yields one at a time.
    It ends with success and the summary of its entries, where no key is unused and used. -/
theorem report_complete (c : Config) (fs : FileSystem)
    (hsource : fs.isPresent c.source = .ok true) (hproject : fs.isPresent c.project = .ok true)
    (hw : (c.walk fs).failure = none) :
    ∃ es, (fs.resourceEntries c.reportEmptyValues c.source).outcome = .ok es ∧
      (c.report fs).events = es.flatMap (Entry.events c (c.hits fs)) ∧
      (c.report fs).outcome =
        .ok ⟨"finished!", true, (c.summaryOf (c.hits fs) es).members⟩ ∧
      Run.Yields fs (Run.start c) (c.report fs).events (c.report fs).outcome ∧
      ((c.summaryOf (c.hits fs) es).unusedKeys.map Prod.fst).Nodup ∧
      ((c.summaryOf (c.hits fs) es).usedKeys.map Prod.fst).Nodup ∧
      ((c.summaryOf (c.hits fs) es).unusedKeys.map Prod.fst).Disjoint
        ((c.summaryOf (c.hits fs) es).usedKeys.map Prod.fst) := by
  have ho := obstacle?_eq_none_iff.2 ⟨hsource, hproject⟩
  have hs := FileSystem.unusable?_of_isPresent hsource
  obtain ⟨hfindings, hfailure⟩ := trace_of_complete hs hw
  refine ⟨_, FileSystem.outcome_resourceEntries hs _, ?_, ?_, Run.yields_report c fs,
    nodup_summaryOf c _ _⟩
  · rw [events_report ho, hfindings, findings, List.filter_flatMap]
    simp only [filter_reports_findings]
  · rw [outcome_report ho, hfindings, findings, foldl_add_findings, Trace.ending, hfailure]
    rfl

/-- A resource file with a key that comes twice, and a project with one file. -/
def listed : FileSystem where
  nodes := [
    (["s"], .file "\"a\" = \"\";\n\"b\" = \"x\";\n\"a\" = \"y\";".toUTF8),
    (["d"], .directory),
    (["f", "d"], .file "\"a\"\n\"a\" \"b\"".toUTF8)]
  denied := []
  workingDirectory := []
  distinct := by decide
  named := by decide

/-- An audit of `listed` that reports everything. -/
def listedConfig : Config where
  source := Path.ofText "s"
  project := Path.ofText "d"
  threshold := 1
  extensions := []
  reportEmptyValues := true
  verbose := true
  recursive := true
  useIndex := false

/-- The key that comes twice is checked twice and stands once in the summary. -/
theorem report_complete_listed :
    listed.isPresent listedConfig.source = .ok true ∧
      listed.isPresent listedConfig.project = .ok true ∧
      (listedConfig.walk listed).failure = none ∧
      (listedConfig.report listed).events = [
        ⟨.emptyValue, "\"a\"", 0⟩, ⟨.used, "\"a\"", 2⟩, ⟨.unused, "\"b\"", 1⟩,
        ⟨.used, "\"a\"", 2⟩] ∧
      (listedConfig.report listed).outcome = .ok ⟨"finished!", true, Summary.members {
        errors := []
        warnings := ["warning, key '\"a\"' has an empty value."]
        source := "s"
        project := "d"
        keysChecked := 3
        unusedKeys := [("\"b\"", 1)]
        emptyValueKeys := ["\"a\""]
        usedKeys := [("\"a\"", 2)] }⟩ := by
  have hsource : listed.isPresent listedConfig.source = .ok true := by cbv
  have hproject : listed.isPresent listedConfig.project = .ok true := by cbv
  have hw : (listedConfig.walk listed).failure = none := by cbv
  have hlines : listed.walkedLines listedConfig.walkOptions listedConfig.project =
      (["\"a\"", "\"a\" \"b\""] : List Text) := by cbv
  have hhits : listedConfig.hits listed =
      fun key => countIn key ["\"a\"", "\"a\" \"b\""] := by
    funext key
    rw [hits, hlines]
  have hentries : listed.resourceEntries listedConfig.reportEmptyValues listedConfig.source =
      ⟨[], .ok [⟨"\"a\"", true⟩, ⟨"\"b\"", false⟩, ⟨"\"a\"", false⟩]⟩ := by cbv
  obtain ⟨es, hes, hevents, houtcome, -⟩ := report_complete listedConfig listed hsource hproject hw
  rw [hentries] at hes
  cases hes
  refine ⟨hsource, hproject, hw, ?_, ?_⟩
  · rw [hevents, hhits]
    cbv
  · rw [houtcome, hhits]
    cbv

end Config

end KeyAudit
