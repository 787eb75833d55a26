import Mathlib
import KeyAudit.Proofs.Audit.Trace
import KeyAudit.Proofs.Resource.Form

/-!
# Quotes around keys

A key begins with a quote and ends with one. Whether these are two is never asked. They are
two, with the body of the key between them (`IsDelimited`), unless the left side of the line
is a single quote, blank space aside (`IsUnclosed`): then the key is this one quote.

Whatever an audit finds is about the key of an entry (`exists_entry_of_mem_findings`). So it
counts the lines with a quote if, and only if, its resource file has such a line
(`delimited_iff_not_unclosed`).
-/

namespace KeyAudit

namespace Entry

/-- A key between two quotes. -/
def IsDelimited (key : Text) : Prop := ∃ body, key = .char '"' :: (body ++ [.char '"'])

/-- A line of the form of an entry whose left side has no closing quote, as it has no more
    than the opening one. -/
def IsUnclosed (line : Text) : Prop :=
  ∃ gap count right, (∀ c ∈ gap, Text.isBlank c = true) ∧
    Form line (.char '"' :: gap) count right

variable {line s : Text} {detect : Bool} {e : Entry}

/-! ## Keys -/

theorem not_isDelimited_quote : ¬IsDelimited [.char '"'] := by
  rintro ⟨body, h⟩
  have hne : body ++ [CodePoint.char '"'] ≠ [] :=
    List.append_ne_nil_of_right_ne_nil _ (List.cons_ne_nil _ _)
  exact absurd (List.cons.inj h).2.symm hne

/-- Between two quotes, or a quote that is both. -/
theorem eq_quote_or_isDelimited (h : isQuoted s = true) : s = [.char '"'] ∨ IsDelimited s := by
  obtain ⟨hfirst, hlast⟩ := isQuoted_iff.1 h
  obtain ⟨t, rfl⟩ := List.head?_eq_some_iff.1 hfirst
  rcases List.eq_nil_or_concat' t with rfl | ⟨body, c, rfl⟩
  · exact .inl rfl
  · rw [← List.cons_append, List.getLast?_concat, Option.some_inj] at hlast
    exact .inr ⟨body, by rw [hlast]⟩

/-- Both ends of every key are quotes. -/
theorem isQuoted_key (h : ofLine? detect line = some e) : isQuoted e.key = true := by
  obtain ⟨left, count, right, hform⟩ := exists_form_of_ofLine? h
  cases h.symm.trans (hform.ofLine? detect)
  exact isQuoted_iff.2 ⟨Text.head?_trimBy hform.opens (by decide), hform.closes⟩

theorem isDelimited_key_iff (h : ofLine? detect line = some e) :
    IsDelimited e.key ↔ e.key ≠ [.char '"'] :=
  ⟨fun hd hq => not_isDelimited_quote (hq ▸ hd),
    (eq_quote_or_isDelimited (isQuoted_key h)).resolve_left⟩

/-! ## Lines without a closing quote -/

/-- Without its blank ends a text is a single quote if this is what it begins with, and the
    rest is blank. -/
theorem trim_eq_quote_iff (hs : s.head? = some (.char '"')) :
    Text.trim s = [.char '"'] ↔
      ∃ gap, (∀ c ∈ gap, Text.isBlank c = true) ∧ s = .char '"' :: gap := by
  constructor
  · intro h
    obtain ⟨gap, rfl⟩ := List.head?_eq_some_iff.1 hs
    have hstart : Text.trimStartBy Text.isBlank (.char '"' :: gap) = .char '"' :: gap :=
      List.dropWhile_cons_of_neg (by decide)
    rw [Text.trim, Text.trimBy, hstart, Text.trimEndBy, List.reverse_eq_iff] at h
    -- What is taken off at the end is all but the quote.
    have hsplit := List.takeWhile_append_dropWhile (p := Text.isBlank)
      (l := (CodePoint.char '"' :: gap).reverse)
    rw [h, List.reverse_cons, List.reverse_singleton] at hsplit
    have hgap := (List.append_inj_left' hsplit rfl).symm
    refine ⟨gap, fun c hc => ?_, rfl⟩
    exact List.mem_takeWhile_imp (hgap ▸ List.mem_reverse.2 hc)
  · rintro ⟨gap, hgap, rfl⟩
    have hnone : ∀ c ∈ ([] : Text), Text.isBlank c = true := fun _ h => absurd h List.not_mem_nil
    exact @Text.trimBy_between _ [] [.char '"'] _ _ _ hnone hgap rfl rfl (by decide) (by decide)

theorem key_eq_quote_iff (h : ofLine? detect line = some e) :
    e.key = [.char '"'] ↔ IsUnclosed line := by
  obtain ⟨left, count, right, hform⟩ := exists_form_of_ofLine? h
  cases h.symm.trans (hform.ofLine? detect)
  constructor
  · intro hkey
    obtain ⟨gap, hgap, rfl⟩ := (trim_eq_quote_iff hform.opens).1 hkey
    exact ⟨gap, count, right, hgap, hform⟩
  · rintro ⟨gap, count', right', hgap, hform'⟩
    obtain ⟨rfl, -, -⟩ := hform.unique hform'
    exact (trim_eq_quote_iff rfl).2 ⟨gap, hgap, rfl⟩

theorem IsUnclosed.exists_entry (h : IsUnclosed line) (detect : Bool) :
    ∃ e, ofLine? detect line = some e := by
  obtain ⟨gap, count, right, -, hform⟩ := h
  exact ⟨_, hform.ofLine? detect⟩

end Entry

/-! ## Audits -/

/-- The key that a check is about. -/
def Check.key : Check → Text
  | .emptyValue key => key
  | .usage key => key

theorem Entry.key_of_mem_checks {e : Entry} {check : Check} (h : check ∈ e.checks) :
    check.key = e.key := by
  rw [checks] at h
  split at h
  · rcases List.mem_cons.1 h with rfl | h
    · rfl
    · rw [List.mem_singleton.1 h]
      rfl
  · rw [List.mem_singleton.1 h]
    rfl

variable {c : Config} {fs : FileSystem} {method : CountMethod} {f : Finding}

theorem Check.key_of_perform {check : Check} (h : (check.perform fs c method).outcome = .ok f) :
    f.key = check.key := by
  cases check with
  | emptyValue key => cases h; rfl
  | usage key =>
    rw [perform, Logged.outcome_bind] at h
    cases hcount : (c.count fs method key).outcome with
    | error error => rw [hcount] at h; cases h
    | ok count => rw [hcount] at h; cases h; rfl

/-- What checks find is about their keys, even if not all of them are carried out. -/
theorem exists_check_of_mem_performChecks {checks : List Check}
    (h : f ∈ (performChecks fs c method checks).findings) :
    ∃ check ∈ checks, f.key = check.key := by
  induction checks with
  | nil => exact absurd h List.not_mem_nil
  | cons check due ih =>
    cases hp : (check.perform fs c method).outcome with
    | error error =>
      rw [(performChecks_cons_of_error due hp).1] at h
      exact absurd h List.not_mem_nil
    | ok g =>
      rw [(performChecks_cons_of_ok due hp).1] at h
      rcases List.mem_cons.1 h with rfl | h
      · exact ⟨check, List.mem_cons_self, Check.key_of_perform hp⟩
      · obtain ⟨check', hc, hk⟩ := ih h
        exact ⟨check', List.mem_cons_of_mem _ hc, hk⟩

namespace Config

/-- All that an audit finds, however it ends, is about entries of its resource file. -/
theorem exists_entry_of_mem_findings (hs : c.source.unusable? = none)
    (h : f ∈ (c.trace fs).findings) :
    ∃ e ∈ fs.entriesAt c.reportEmptyValues c.source, f.key = e.key := by
  cases hm : (c.countMethod fs).outcome with
  | error error =>
    rw [(trace_of_prepare_error (outcome_prepare_of_error hm)).1] at h
    exact absurd h List.not_mem_nil
  | ok method =>
    rw [(trace_of_prepare (outcome_prepare hs hm)).1] at h
    obtain ⟨check, hcheck, hk⟩ := exists_check_of_mem_performChecks h
    obtain ⟨e, he, hcheck⟩ := List.mem_flatMap.1 hcheck
    exact ⟨e, he, hk.trans (Entry.key_of_mem_checks hcheck)⟩

theorem exists_entry_of_mem_events (h : f ∈ (c.report fs).events) :
    ∃ e ∈ fs.entriesAt c.reportEmptyValues c.source, f.key = e.key := by
  by_cases ho : c.obstacle? fs = .ok none
  · rw [events_report ho] at h
    exact exists_entry_of_mem_findings (unusable?_source ho) (List.mem_filter.1 h).1
  · rw [(report_of_not_start rfl rfl ho).1] at h
    exact absurd h List.not_mem_nil

/-- An audit that starts and whose walk does not fail counts the keys of all entries, and
    nothing else. -/
theorem verdict_mem_findings_iff (hs : c.source.unusable? = none) (hw : (c.walk fs).failure = none)
    {key : Text} : c.verdict key (c.hits fs key) ∈ (c.trace fs).findings ↔
      ∃ e ∈ fs.entriesAt c.reportEmptyValues c.source, e.key = key := by
  constructor
  · intro h
    obtain ⟨e, he, hk⟩ := exists_entry_of_mem_findings hs h
    exact ⟨e, he, hk.symm⟩
  · rintro ⟨e, he, rfl⟩
    rw [(trace_of_complete hs hw).1, findings]
    exact List.mem_flatMap.2 ⟨e, he, List.mem_append_right _ (List.mem_singleton.2 rfl)⟩

end Config

namespace Entry

/-- An entry with a single quote as its key comes from a line without a closing quote. -/
theorem exists_quote_iff {p : Path} : (∃ e ∈ fs.entriesAt detect p, e.key = [.char '"']) ↔
    ∃ line ∈ fs.linesAt p, IsUnclosed line := by
  constructor
  · rintro ⟨e, he, hk⟩
    obtain ⟨line, hline, he⟩ := List.mem_filterMap.1 he
    exact ⟨line, hline, (key_eq_quote_iff he).1 hk⟩
  · rintro ⟨line, hline, h⟩
    obtain ⟨e, he⟩ := h.exists_entry detect
    exact ⟨e, List.mem_filterMap.2 ⟨line, hline, he⟩, (key_eq_quote_iff he).2 h⟩

/-- The key of an entry stands between two quotes, or else it is a single quote, and that if
    and only if nothing but blank space follows the opening quote on the left side of its
    line. Such a line does hold an entry. In an audit too all keys stand between two quotes,
    unless the resource file has a line of this kind; if it has, a single quote is counted as
    well. -/
theorem delimited_iff_not_unclosed (line : Text) (detect : Bool) (c : Config) (fs : FileSystem) :
    (∀ e, ofLine? detect line = some e →
      (IsDelimited e.key ↔ ¬IsUnclosed line) ∧ (e.key = [.char '"'] ↔ IsUnclosed line)) ∧
    (IsUnclosed line → ∃ e, ofLine? detect line = some e) ∧
    (∀ f ∈ (c.report fs).events, IsDelimited f.key ∨
      f.key = [.char '"'] ∧ ∃ line ∈ fs.linesAt c.source, IsUnclosed line) ∧
    (c.obstacle? fs = .ok none → (c.walk fs).failure = none →
      (c.verdict [.char '"'] (c.hits fs [.char '"']) ∈ (c.trace fs).findings ↔
        ∃ line ∈ fs.linesAt c.source, IsUnclosed line)) := by
  refine ⟨fun e h => ⟨?_, key_eq_quote_iff h⟩, fun h => h.exists_entry detect, fun f hf => ?_,
    fun ho hw => ?_⟩
  · rw [isDelimited_key_iff h, ← key_eq_quote_iff h]
  · obtain ⟨e, he, hk⟩ := Config.exists_entry_of_mem_events hf
    rw [hk]
    by_cases hq : e.key = [.char '"']
    · exact .inr ⟨hq, exists_quote_iff.1 ⟨e, he, hq⟩⟩
    · obtain ⟨line, -, he⟩ := List.mem_filterMap.1 he
      exact .inl ((isDelimited_key_iff he).2 hq)
  · have hs := FileSystem.unusable?_of_isPresent (Config.obstacle?_eq_none_iff.1 ho).1
    rw [Config.verdict_mem_findings_iff hs hw, exists_quote_iff]

/-- A resource file with such a line, and a project with two lines that hold a quote. -/
def unclosed : FileSystem where
  nodes := [(["s"], .file "\"=x;".toUTF8), (["d"], .directory),
    (["f", "d"], .file "print(\"a\")\nx\ny = \"\"".toUTF8)]
  denied := []
  workingDirectory := []
  distinct := by decide
  named := by decide

/-- An audit of `unclosed` that reports everything. -/
def unclosedConfig : Config where
  source := Path.ofText "s"
  project := Path.ofText "d"
  threshold := 1
  extensions := []
  reportEmptyValues := false
  verbose := true
  recursive := true
  useIndex := false

/-- Blank space between the only quote and the equals signs, and an audit of a file with a line
    that has no more than a quote on its left side. -/
theorem delimited_iff_not_unclosed_blank :
    IsUnclosed "\"\u00a0== x;" ∧
      (∃ e, ofLine? true "\"\u00a0== x;" = some e ∧ e.key = "\"") ∧
      ofLine? true "\"a\" = \"\";" = some ⟨"\"a\"", true⟩ ∧ IsDelimited "\"a\"" ∧
      unclosedConfig.obstacle? unclosed = .ok none ∧
      (unclosedConfig.walk unclosed).failure = none ∧
      (∃ line ∈ unclosed.linesAt unclosedConfig.source, IsUnclosed line) ∧
      unclosedConfig.verdict "\"" (unclosedConfig.hits unclosed "\"") ∈
        (unclosedConfig.trace unclosed).findings := by
  obtain ⟨hkeys, hentry, -, haudit⟩ :=
    delimited_iff_not_unclosed "\"\u00a0== x;" true unclosedConfig unclosed
  have hunclosed : IsUnclosed "\"\u00a0== x;" :=
    ⟨[.char '\u00a0'], 2, " x;", by decide, by constructor <;> decide⟩
  obtain ⟨e, he⟩ := hentry hunclosed
  have hline : ofLine? true "\"a\" = \"\";" = some ⟨"\"a\"", true⟩ := by decide
  obtain ⟨hdelimited, hquote⟩ :=
    (delimited_iff_not_unclosed "\"a\" = \"\";" true unclosedConfig unclosed).1 _ hline
  have ho : unclosedConfig.obstacle? unclosed = .ok none := by cbv
  have hw : (unclosedConfig.walk unclosed).failure = none := by cbv
  have hlines : unclosed.linesAt unclosedConfig.source = ["\"=x;"] := by cbv
  have hsource : ∃ line ∈ unclosed.linesAt unclosedConfig.source, IsUnclosed line := by
    rw [hlines]
    exact ⟨"\"=x;", List.mem_singleton.2 rfl, [], 1, "x;", by decide, by constructor <;> decide⟩
  exact ⟨hunclosed, ⟨e, he, (hkeys e he).2.2 hunclosed⟩, hline,
    hdelimited.2 fun h => absurd (hquote.2 h) (by decide), ho, hw, hsource,
    (haudit ho hw).2 hsource⟩

/-- The key of this line is a quote without another one, and its audit counts the lines that
    hold a quote. -/
theorem not_isDelimited_unclosed :
    ofLine? false "\"=x;" = some ⟨"\"", false⟩ ∧ ofLine? true "\"=x;" = some ⟨"\"", false⟩ ∧
      ¬IsDelimited "\"" ∧ (unclosedConfig.report unclosed).events = [⟨.used, "\"", 2⟩] :=
  ⟨by decide, by decide, not_isDelimited_quote, by cbv⟩

end Entry

end KeyAudit
