import Mathlib
import KeyAudit.Proofs.Audit.Complete
import KeyAudit.Proofs.FileSystem.Content
import KeyAudit.Proofs.Text.Octets

/-!
# Resource files one after the other

What is found about a key does not depend on the other keys of the resource file. If a
resource file is put together from two, one below the other, its audit reports what the audits
of both report, and its summary joins theirs (`Summary.Joins`), in which no key has two counts
or two verdicts (`report_joinLines`).

For that, all that an audit does has to respect the line feed between them: the entries are
those of both (`entriesAt_joined`), and so are the distinct keys (`distinctKeys_append`), the
tallies (`tally_append`) and the summary of the entries (`joins_summaryOf`). The project has
the same lines in all three, as the resource file is not among its files (`hits_given`).
-/

namespace KeyAudit

open Text.Utf8

/-- The counts of keys that have none yet. -/
def newKeys (old counts : List (Text × Int)) : List (Text × Int) :=
  counts.filter fun k => k.1 ∉ old.map Prod.fst

/-- A summary holds what two others hold, one after the other. A key that both have keeps the
    place that it has in the first. Between the two no key has different counts, and none is
    unused and used. -/
structure Summary.Joins (first second both : Summary) : Prop where
  errors : both.errors = first.errors ++ second.errors
  warnings : both.warnings = first.warnings ++ second.warnings
  source : both.source = first.source ∧ both.source = second.source
  project : both.project = first.project ∧ both.project = second.project
  keysChecked : both.keysChecked = first.keysChecked + second.keysChecked
  emptyValueKeys : both.emptyValueKeys = first.emptyValueKeys ++ second.emptyValueKeys
  unusedKeys : both.unusedKeys = first.unusedKeys ++ newKeys first.unusedKeys second.unusedKeys
  usedKeys : both.usedKeys = first.usedKeys ++ newKeys first.usedKeys second.usedKeys
  counts : ∀ key m n, (key, m) ∈ first.unusedKeys ++ first.usedKeys →
    (key, n) ∈ second.unusedKeys ++ second.usedKeys → m = n
  verdicts : ((first.unusedKeys ++ second.unusedKeys).map Prod.fst).Disjoint
    ((first.usedKeys ++ second.usedKeys).map Prod.fst)

variable {hits : Text → Nat} {p : Text → Bool} {es es' : List Entry}

/-! ## Findings about entries one after the other -/

/-- The keys of more entries are new unless they have come before. -/
theorem distinctKeys_append (es es' : List Entry) :
    distinctKeys (es ++ es') =
      distinctKeys es ++ (distinctKeys es').filter fun key => key ∉ distinctKeys es := by
  induction es' using List.reverseRecOn with
  | nil => simp [distinctKeys]
  | append_singleton es' e ih =>
    rw [← List.append_assoc, distinctKeys_snoc, distinctKeys_snoc, ih]
    by_cases hold : e.key ∈ distinctKeys es
    · -- A key of the first entries stays where it is.
      rw [if_pos (List.mem_append_left _ hold)]
      split
      · rfl
      · rw [List.filter_append, List.filter_singleton]
        simp [hold]
    · by_cases hnew : e.key ∈ distinctKeys es'
      · rw [if_pos hnew, if_pos]
        exact List.mem_append_right _ (List.mem_filter.2 ⟨hnew, decide_eq_true hold⟩)
      · have hkey : e.key ∉ distinctKeys es ++
            (distinctKeys es').filter fun key => key ∉ distinctKeys es := by
          intro h
          rcases List.mem_append.1 h with h | h
          · exact hold h
          · exact hnew (List.mem_filter.1 h).1
        rw [if_neg hkey, if_neg hnew, List.filter_append, List.append_assoc]
        simp [hold]

theorem tally_append (hits : Text → Nat) (p : Text → Bool) (es es' : List Entry) :
    tally hits p (es ++ es') = tally hits p es ++ newKeys (tally hits p es) (tally hits p es') := by
  rw [newKeys, map_fst_tally, tally, distinctKeys_append, List.filter_append, List.map_append]
  refine congrArg (tally hits p es ++ ·) ?_
  rw [tally, List.filter_map, List.filter_filter, List.filter_filter]
  refine congrArg (List.map _) (List.filter_congr fun key _ => ?_)
  -- Only keys with the property matter.
  cases hp : p key
  · simp [hp]
  · simp [hp]

/-- The count in a tally is that of the key. -/
theorem eq_hits_of_mem_tally {key : Text} {n : Int} (h : (key, n) ∈ tally hits p es) :
    n = hits key := by
  obtain ⟨key', -, he⟩ := List.mem_map.1 h
  cases he
  rfl

/-- What is in a file are the lines of its text, if it may be read. -/
theorem FileSystem.Holds.linesAt {fs : FileSystem} {path : Path} {bytes : ByteArray}
    {cs : List Char} (h : fs.Holds path bytes) (hcs : decode bytes.data.toList = .ok cs) :
    fs.linesAt path = if fs.denies .read path then [] else linesOf (Text.ofChars cs) := by
  rw [FileSystem.linesAt, FileSystem.text, h.content_eq]
  cases fs.denies .read path with
  | true => rfl
  | false => simp only [hcs, Bool.false_eq_true, if_false]

namespace Config

variable {c : Config} {fs : FileSystem} {a b x : ByteArray}

theorem eq_hits_of_mem_counts {key : Text} {n : Int}
    (h : (key, n) ∈ (c.summaryOf hits es).unusedKeys ++ (c.summaryOf hits es).usedKeys) :
    n = hits key := by
  rcases List.mem_append.1 h with h | h
  · exact eq_hits_of_mem_tally h
  · rw [summaryOf] at h
    dsimp only at h
    split at h
    · exact eq_hits_of_mem_tally h
    · cases h

theorem hits_le_of_mem_unusedKeys {key : Text}
    (h : key ∈ (c.summaryOf hits es).unusedKeys.map Prod.fst) : hits key ≤ c.threshold := by
  rw [summaryOf, map_fst_tally] at h
  exact of_decide_eq_true (List.mem_filter.1 h).2

theorem lt_hits_of_mem_usedKeys {key : Text}
    (h : key ∈ (c.summaryOf hits es).usedKeys.map Prod.fst) : c.threshold < hits key := by
  rw [summaryOf] at h
  dsimp only at h
  split at h
  · rw [map_fst_tally] at h
    exact of_decide_eq_true (List.mem_filter.1 h).2
  · cases h

/-- The summary of entries joins those of the entries up to some point and after it. -/
theorem joins_summaryOf (c : Config) (hits : Text → Nat) (es es' : List Entry) :
    (c.summaryOf hits es).Joins (c.summaryOf hits es') (c.summaryOf hits (es ++ es')) where
  errors := rfl
  warnings := by
    simp only [summaryOf, List.filter_append, List.map_append]
  source := ⟨rfl, rfl⟩
  project := ⟨rfl, rfl⟩
  keysChecked := by
    simp only [summaryOf, List.length_append, Nat.cast_add]
  emptyValueKeys := by
    simp only [summaryOf, List.filter_append, List.map_append]
  unusedKeys := tally_append ..
  usedKeys := by
    simp only [summaryOf]
    split
    · exact tally_append ..
    · rfl
  counts key m n hm hn := (eq_hits_of_mem_counts hm).trans (eq_hits_of_mem_counts hn).symm
  verdicts := by
    have hunused : ∀ key ∈ ((c.summaryOf hits es).unusedKeys ++
        (c.summaryOf hits es').unusedKeys).map Prod.fst, hits key ≤ c.threshold := by
      intro key hkey
      rw [List.map_append] at hkey
      rcases List.mem_append.1 hkey with hkey | hkey
      · exact hits_le_of_mem_unusedKeys hkey
      · exact hits_le_of_mem_unusedKeys hkey
    intro key hkey hused
    rw [List.map_append] at hused
    rcases List.mem_append.1 hused with hused | hused
    · exact absurd (hunused key hkey) (Nat.not_le.2 (lt_hits_of_mem_usedKeys hused))
    · exact absurd (hunused key hkey) (Nat.not_le.2 (lt_hits_of_mem_usedKeys hused))

/-! ## The same project -/

/-- The file system in which the resource file holds some octets. -/
def given (c : Config) (fs : FileSystem) (bytes : ByteArray) : FileSystem :=
  fs.put (fs.realPath c.source) (.file bytes)

section

variable (hsource : fs.Holds c.source x)
include hsource

theorem node?_source : fs.node? (fs.realPath c.source) = some (.file x) := by
  obtain ⟨-, l, hl, hn⟩ := hsource
  rw [FileSystem.realPath_of_resolve hl, hn]

theorem alike_given (y : ByteArray) : fs.Alike (c.given fs y) :=
  FileSystem.alike_put (node?_source hsource) y

/-- The walk does not depend on the resource file. -/
theorem walk_given (y : ByteArray) : c.walk (c.given fs y) = c.walk fs :=
  (alike_given hsource y).walk (FileSystem.entries_put (node?_source hsource)) _ _

/-- Nor do the counts, if the walk does not come to the resource file. -/
theorem hits_given (hfiles : ∀ p ∈ (c.walk fs).files, fs.resolve p ≠ .ok (fs.realPath c.source))
    (y : ByteArray) : c.hits (c.given fs y) = c.hits fs := by
  have hlines : ∀ p ∈ (c.walk fs).files, (c.given fs y).linesAt p = fs.linesAt p := by
    intro p hp
    rw [FileSystem.linesAt, FileSystem.linesAt, given,
      FileSystem.text_put (node?_source hsource) (hfiles p hp)]
  have hwalked : (c.given fs y).walkedLines c.walkOptions c.project =
      fs.walkedLines c.walkOptions c.project := by
    change (c.walk (c.given fs y)).files.flatMap _ = (c.walk fs).files.flatMap _
    rw [walk_given hsource, List.flatMap_congr hlines]
  funext key
  rw [hits, hits, hwalked]

/-- The resource file is there, and the project, as its walk does not fail. -/
theorem obstacle?_given (hw : (c.walk fs).failure = none) (y : ByteArray) :
    c.obstacle? (c.given fs y) = .ok none := by
  have hpresent : ∀ (p : Path) (l : Location), p.unusable? = none → fs.resolve p = .ok l →
      (c.given fs y).isPresent p = .ok true := by
    intro p l hp hl
    rw [(alike_given hsource y).isPresent, FileSystem.isPresent, hp, hl]
    rfl
  obtain ⟨names, hlist, -⟩ := FileSystem.walkFrom_of_failure_eq_none hw
  obtain ⟨hp, k, hk, -⟩ := FileSystem.list_eq_ok_iff.1 hlist
  obtain ⟨hs, l, hl, -⟩ := hsource
  exact obstacle?_eq_none_iff.2 ⟨hpresent _ _ hs hl, hpresent _ _ hp hk⟩

/-! ## The resource file -/

/-- The entries of a resource file that is put together from two are those of both, whether
    it may be read or not. -/
theorem entriesAt_joined (detect : Bool) (ha : IsText a) (hb : IsText b) :
    (c.given fs (joinLines a b)).entriesAt detect c.source =
      (c.given fs a).entriesAt detect c.source ++ (c.given fs b).entriesAt detect c.source := by
  have hlines : ∀ (y : ByteArray) (cs : List Char), decode y.data.toList = .ok cs →
      (c.given fs y).linesAt c.source =
        if fs.denies .read c.source then [] else linesOf (Text.ofChars cs) := by
    intro y cs hy
    have hholds : (c.given fs y).Holds c.source y := hsource.put y
    rw [hholds.linesAt hy, (alike_given hsource y).denies]
  obtain ⟨xs, hxs⟩ := ha
  obtain ⟨ys, hys⟩ := hb
  have hjoined : decode (joinLines a b).data.toList = .ok (xs ++ '\n' :: ys) := by
    rw [toList_joinLines]
    exact decode_lineFeed_iff.2 ⟨xs, ys, hxs, hys, rfl⟩
  have hchars : Text.ofChars (xs ++ '\n' :: ys) =
      Text.ofChars xs ++ .char '\n' :: Text.ofChars ys := List.map_append
  rw [FileSystem.entriesAt, FileSystem.entriesAt, FileSystem.entriesAt, hlines _ _ hjoined,
    hlines _ _ hxs, hlines _ _ hys, ← List.filterMap_append]
  split
  · rfl
  · rw [hchars, linesOf_append]

end

/-! ## Audits of resource files one after the other -/

/-- An audit reports the events of its entries, and ends with their summary, if its walk does
    not fail. -/
theorem report_of_entries (ho : c.obstacle? fs = .ok none) (hw : (c.walk fs).failure = none) :
    (c.trace fs).findings = c.findings fs ∧
    (c.report fs).events =
        (fs.entriesAt c.reportEmptyValues c.source).flatMap (Entry.events c (c.hits fs)) ∧
      (c.report fs).outcome = .ok (Ending.complete.outcome
        (c.summaryOf (c.hits fs) (fs.entriesAt c.reportEmptyValues c.source))) := by
  have hs := unusable?_source ho
  obtain ⟨hfindings, hfailure⟩ := trace_of_complete hs hw
  refine ⟨hfindings, ?_, ?_⟩
  · rw [events_report ho, hfindings, findings, List.filter_flatMap]
    simp only [filter_reports_findings]
  · rw [outcome_report ho, hfindings, findings, foldl_add_findings, Trace.ending, hfailure]

/-- What is found about the use of a key is the verdict on its count. -/
theorem eq_verdict_of_mem_findings {f : Finding} (hf : f ∈ c.findings fs)
    (hk : f.kind ≠ .emptyValue) : f = c.verdict f.key (c.hits fs f.key) := by
  obtain ⟨e, -, hf⟩ := List.mem_flatMap.1 hf
  rcases List.mem_append.1 hf with hwarning | hverdict
  · exact absurd (Entry.kind_of_mem_warnings hwarning) hk
  · rw [List.mem_singleton.1 hverdict]
    rfl

/-- If a resource file is put together from two with a line feed between them, then it is
    UTF-8 exactly if both are. Its audit reports what the audit of the first reports and
    then what the audit of the second does, and ends with a summary that joins theirs. No two
    of its findings about the use of a key, whether they are reported or not, differ in their
    verdicts or counts. -/
theorem report_joinLines (c : Config) (fs : FileSystem) (x a b : ByteArray)
    (hsource : fs.Holds c.source x) (hw : (c.walk fs).failure = none)
    (hfiles : ∀ p ∈ (c.walk fs).files, fs.resolve p ≠ .ok (fs.realPath c.source)) :
    (IsText (joinLines a b) ↔ IsText a ∧ IsText b) ∧
    (IsText a → IsText b →
      (c.report (c.given fs (joinLines a b))).events =
        (c.report (c.given fs a)).events ++ (c.report (c.given fs b)).events ∧
      (∃ first second both : Summary, first.Joins second both ∧
        (c.report (c.given fs a)).outcome = .ok ⟨"finished!", true, first.members⟩ ∧
        (c.report (c.given fs b)).outcome = .ok ⟨"finished!", true, second.members⟩ ∧
        (c.report (c.given fs (joinLines a b))).outcome = .ok ⟨"finished!", true, both.members⟩) ∧
      ∀ f ∈ (c.trace (c.given fs (joinLines a b))).findings,
        ∀ g ∈ (c.trace (c.given fs (joinLines a b))).findings,
          f.kind ≠ .emptyValue → g.kind ≠ .emptyValue → f.key = g.key → f = g) := by
  refine ⟨isText_joinLines, fun ha hb => ?_⟩
  -- All three audits count the keys of their entries in the same lines.
  have hreport := fun y => report_of_entries (obstacle?_given hsource hw y)
    ((congrArg Walk.failure (walk_given hsource y)).trans hw)
  simp only [hits_given hsource hfiles] at hreport
  have hentries := entriesAt_joined hsource c.reportEmptyValues ha hb
  obtain ⟨-, hevents₁, houtcome₁⟩ := hreport a
  obtain ⟨-, hevents₂, houtcome₂⟩ := hreport b
  obtain ⟨hfindings, hevents, houtcome⟩ := hreport (joinLines a b)
  refine ⟨?_, ⟨_, _, _, joins_summaryOf c (c.hits fs) _ _, houtcome₁, houtcome₂, ?_⟩, ?_⟩
  · rw [hevents, hevents₁, hevents₂, hentries, List.flatMap_append]
  · rw [houtcome, hentries]
    rfl
  · intro f hf g hg hfk hgk hkey
    rw [hfindings] at hf hg
    rw [eq_verdict_of_mem_findings hf hfk, eq_verdict_of_mem_findings hg hgk, hkey]

/-- The upper part of a resource file. -/
def upperPart : ByteArray := "\"a\" = \"\";\n// é".toUTF8

/-- The lower part of a resource file, with a key that is in the upper part as well. -/
def lowerPart : ByteArray := "\"b\" = \"é\";\n\"a\" = \"y\";".toUTF8

/-- The resource file of `listed` may be put together from the two parts, and the key that is
    in both has the same verdict in both. -/
theorem report_joinLines_listed :
    (∃ x, listed.Holds listedConfig.source x) ∧ (listedConfig.walk listed).failure = none ∧
      (∀ p ∈ (listedConfig.walk listed).files,
        listed.resolve p ≠ .ok (listed.realPath listedConfig.source)) ∧
      IsText upperPart ∧ IsText lowerPart ∧ IsText (joinLines upperPart lowerPart) ∧
      (listedConfig.report (listedConfig.given listed (joinLines upperPart lowerPart))).events =
        [⟨.emptyValue, "\"a\"", 0⟩, ⟨.used, "\"a\"", 2⟩, ⟨.unused, "\"b\"", 1⟩,
          ⟨.used, "\"a\"", 2⟩] := by
  have hsource : listed.Holds listedConfig.source _ := ⟨by cbv, ["s"], by cbv, rfl⟩
  have hwalk : listedConfig.walk listed = ⟨[Path.ofText "d/f"], none⟩ := by cbv
  have hw : (listedConfig.walk listed).failure = none := by rw [hwalk]
  have hfiles : ∀ p ∈ (listedConfig.walk listed).files,
      listed.resolve p ≠ .ok (listed.realPath listedConfig.source) := by
    intro p hp
    rw [hwalk] at hp
    have hresolve : listed.resolve p = .ok ["f", "d"] := by
      rw [List.mem_singleton.1 hp]
      cbv
    have hreal : listed.realPath listedConfig.source = ["s"] := by cbv
    rw [hresolve, hreal]
    exact fun h => absurd (Except.ok.inj h) (by decide)
  have hupper : IsText upperPart := ⟨_, decode_toUTF8 _⟩
  have hlower : IsText lowerPart := ⟨_, decode_toUTF8 _⟩
  have heventsUpper : (listedConfig.report (listedConfig.given listed upperPart)).events =
      [⟨.emptyValue, "\"a\"", 0⟩, ⟨.used, "\"a\"", 2⟩] := by cbv
  have heventsLower : (listedConfig.report (listedConfig.given listed lowerPart)).events =
      [⟨.unused, "\"b\"", 1⟩, ⟨.used, "\"a\"", 2⟩] := by cbv
  obtain ⟨hiff, hreport⟩ :=
    report_joinLines listedConfig listed _ upperPart lowerPart hsource hw hfiles
  obtain ⟨hevents, -⟩ := hreport hupper hlower
  refine ⟨⟨_, hsource⟩, hw, hfiles, hupper, hlower, hiff.2 ⟨hupper, hlower⟩, ?_⟩
  rw [hevents, heventsUpper, heventsLower]
  rfl

end Config

end KeyAudit
