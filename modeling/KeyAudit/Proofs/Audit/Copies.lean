import Mathlib
import KeyAudit.Proofs.Audit.Stream
import KeyAudit.Proofs.FileSystem.Content

/-!
# Copies of the resource file

A resource file in the project counts itself: every key is a piece of the line that it
comes from (`Entry.key_infix`), and this line is read again in every file of the walk with
the same octets. So a key is found at least as many times as there are such files and
entries with the key, with and without an index, and none is unused if the threshold is less
than the number of these files (`copies_le_count`).
-/

namespace KeyAudit

namespace FileSystem

variable {fs : FileSystem} {p q : Path}

/-- The lines of a file are those of its octets. -/
theorem linesAt_of_content (h : fs.content p = fs.content q) : fs.linesAt p = fs.linesAt q := by
  rw [linesAt, linesAt, text, text, h]

/-- A file that holds some octets has these as its content, or cannot be read and has no
    lines. -/
theorem Holds.content {bytes : ByteArray} (h : fs.Holds p bytes) :
    fs.content p = .ok bytes ∨ fs.linesAt p = [] := by
  rw [h.content_eq]
  cases hd : fs.denies .read p with
  | false => exact .inl rfl
  | true =>
    refine .inr ?_
    rw [linesAt, text, h.content_eq, hd]
    rfl

end FileSystem

/-- Files with the same number of lines that hold a key add up. -/
theorem length_mul_le_countIn {key : Text} {n : Nat} {lines : Path → List Text} (ps : List Path)
    (isCopy : Path → Bool) (h : ∀ p, isCopy p = true → countIn key (lines p) = n) :
    (ps.filter isCopy).length * n ≤ countIn key (ps.flatMap lines) := by
  induction ps with
  | nil => exact (Nat.zero_mul n).le
  | cons p ps ih =>
    rw [List.flatMap_cons, countIn_append]
    by_cases hp : isCopy p = true
    · rw [List.filter_cons_of_pos hp, List.length_cons, Nat.succ_mul, h p hp, Nat.add_comm]
      exact Nat.add_le_add_left ih n
    · rw [List.filter_cons_of_neg hp]
      exact ih.trans (Nat.le_add_left _ _)

/-- The lines of the entries with a key hold it. -/
theorem countP_entries_le (detect : Bool) (key : Text) (lines : List Text) :
    (lines.filterMap fun line => Entry.ofLine? detect line).countP (fun e => e.key = key) ≤
      countIn key lines := by
  rw [List.countP_filterMap, countIn]
  refine List.countP_mono_left fun line _ h => ?_
  cases he : Entry.ofLine? detect line with
  | none => rw [he] at h; cases h
  | some e =>
    rw [he] at h
    have hkey : e.key = key := of_decide_eq_true h
    exact Text.occurs_iff.2 (hkey ▸ Entry.key_infix he)

namespace Config

variable {c : Config} {fs : FileSystem} {bytes : ByteArray}

/-- The files of the walk that can be read and hold some octets. -/
def copies (c : Config) (fs : FileSystem) (bytes : ByteArray) : List Path :=
  (c.walk fs).files.filter fun p => (fs.content p).toOption = some bytes

/-- The lines of the resource file are counted in every copy. -/
theorem copies_mul_le_hits (hsource : fs.Holds c.source bytes) (detect : Bool) (key : Text) :
    (c.copies fs bytes).length * (fs.entriesAt detect c.source).countP (fun e => e.key = key) ≤
      c.hits fs key := by
  rcases hsource.content with hc | hnone
  · have hcopy : ∀ p, decide ((fs.content p).toOption = some bytes) = true →
        countIn key (fs.linesAt p) = countIn key (fs.linesAt c.source) := fun p hp => by
      have hp : fs.content p = .ok bytes := by
        cases hq : fs.content p with
        | error error => rw [hq] at hp; cases of_decide_eq_true hp
        | ok content =>
          rw [hq] at hp
          exact congrArg Except.ok (Option.some.inj (of_decide_eq_true hp))
      rw [FileSystem.linesAt_of_content (hp.trans hc.symm)]
    calc (c.copies fs bytes).length * (fs.entriesAt detect c.source).countP (fun e => e.key = key)
      _ ≤ (c.copies fs bytes).length * countIn key (fs.linesAt c.source) :=
        Nat.mul_le_mul_left _ (countP_entries_le detect key _)
      _ ≤ c.hits fs key := length_mul_le_countIn _ _ hcopy
  · rw [FileSystem.entriesAt, hnone]
    exact Nat.zero_le _

/-- A key of the resource file that is unused is found no more often than the threshold
    says. -/
theorem hits_le_of_unused {f : Finding} (ho : c.obstacle? fs = .ok none)
    (hw : (c.walk fs).failure = none) (hf : f ∈ (c.report fs).events) (hk : f.kind = .unused) :
    ∃ e ∈ fs.entriesAt c.reportEmptyValues c.source, c.hits fs e.key ≤ c.threshold := by
  have hs := unusable?_source ho
  rw [events_report ho, (trace_of_complete hs hw).1, findings] at hf
  obtain ⟨e, he, hfe⟩ := List.mem_flatMap.1 (List.mem_filter.1 hf).1
  refine ⟨e, he, ?_⟩
  rcases List.mem_append.1 hfe with hwarning | hverdict
  · cases hk.symm.trans (Entry.kind_of_mem_warnings hwarning)
  · by_contra hlt
    rw [verdict, if_neg hlt, List.mem_singleton] at hverdict
    rw [hverdict] at hk
    cases hk

/-- A resource file counts itself in every copy that the walk finds: both ways to count find
    each of its keys at least as many times as there are copies and entries with the key. So
    no key is unused if there are more copies than the threshold says. -/
theorem copies_le_count (c : Config) (fs : FileSystem) (bytes : ByteArray)
    (hw : (c.walk fs).failure = none) (hsource : fs.Holds c.source bytes) :
    (∀ detect, ∃ es, (fs.resourceEntries detect c.source).outcome = .ok es ∧ ∀ e ∈ es,
      (∃ n, (occurrences fs c.walkOptions c.project e.key).outcome = .ok n ∧
        (c.copies fs bytes).length * es.countP (fun e' => e'.key = e.key) ≤ n) ∧
      ∃ index, (LineIndex.build fs c.walkOptions c.project).outcome = .ok index ∧
        (c.copies fs bytes).length * es.countP (fun e' => e'.key = e.key) ≤ index.count e.key) ∧
    (c.threshold < (c.copies fs bytes).length →
      ∀ f ∈ (c.report fs).events, f.kind ≠ .unused) := by
  refine ⟨fun detect => ⟨_, FileSystem.outcome_resourceEntries hsource.1 detect, fun e _ =>
    ⟨⟨_, FileSystem.outcome_occurrences hw e.key, copies_mul_le_hits hsource detect e.key⟩,
      ⟨_, FileSystem.outcome_build hw, copies_mul_le_hits hsource detect e.key⟩⟩⟩, ?_⟩
  intro hthreshold f hf hk
  by_cases ho : c.obstacle? fs = .ok none
  · obtain ⟨e, he, hle⟩ := hits_le_of_unused ho hw hf hk
    -- The entry itself has its key.
    have hpos : 0 < (fs.entriesAt c.reportEmptyValues c.source).countP (fun e' => e'.key = e.key) :=
      List.countP_pos_iff.2 ⟨e, he, decide_eq_true rfl⟩
    have hcopies : (c.copies fs bytes).length ≤ c.hits fs e.key :=
      (Nat.le_mul_of_pos_right _ hpos).trans (copies_mul_le_hits hsource _ e.key)
    omega
  · rw [(report_of_not_start rfl rfl ho).1] at hf
    exact List.not_mem_nil hf

/-- A resource file with a key that comes twice. -/
def copiedBytes : ByteArray := "\"a\" = \"\";\n\"b\" = \"x\";\n\"a\" = \"y\";".toUTF8

/-- The resource file in a project, and a link to it. -/
def copied : FileSystem where
  nodes := [(["d"], .directory), (["s", "d"], .file copiedBytes), (["l", "d"], .link "s")]
  denied := []
  workingDirectory := []
  distinct := by decide
  named := by decide

/-- An audit of `copied`. -/
def copiedConfig : Config where
  source := Path.ofText "d/s"
  project := Path.ofText "d"
  threshold := 1
  extensions := []
  reportEmptyValues := false
  verbose := true
  recursive := true
  useIndex := false

/-- The resource file is found twice, once through the link. -/
theorem copies_le_count_copied :
    (copiedConfig.walk copied).failure = none ∧ copied.Holds copiedConfig.source copiedBytes ∧
      (copiedConfig.copies copied copiedBytes).length = 2 ∧
      (∃ n, (occurrences copied copiedConfig.walkOptions copiedConfig.project "\"a\"").outcome =
        .ok n ∧ 4 ≤ n) ∧
      ∀ f ∈ (copiedConfig.report copied).events, f.kind ≠ .unused := by
  have hwalk : copiedConfig.walk copied = ⟨[Path.ofText "d/s", Path.ofText "d/l"], none⟩ := by cbv
  have hw : (copiedConfig.walk copied).failure = none := by rw [hwalk]
  have hsource : copied.Holds copiedConfig.source copiedBytes := ⟨by cbv, ["s", "d"], by cbv, rfl⟩
  have hfile : copied.content (Path.ofText "d/s") = .ok copiedBytes :=
    FileSystem.content_eq_ok_iff.2 ⟨by cbv, ["s", "d"], by cbv, List.not_mem_nil, rfl⟩
  have hlink : copied.content (Path.ofText "d/l") = .ok copiedBytes :=
    FileSystem.content_eq_ok_iff.2 ⟨by cbv, ["s", "d"], by cbv, List.not_mem_nil, rfl⟩
  have hcopies : (copiedConfig.copies copied copiedBytes).length = 2 := by
    simp [copies, hwalk, hfile, hlink, Except.toOption]
  have hentries : copied.resourceEntries false copiedConfig.source =
      ⟨[], .ok [⟨"\"a\"", false⟩, ⟨"\"b\"", false⟩, ⟨"\"a\"", false⟩]⟩ := by cbv
  obtain ⟨hcounts, hunused⟩ := copies_le_count copiedConfig copied _ hw hsource
  obtain ⟨es, hes, hcount⟩ := hcounts false
  rw [hentries] at hes
  cases hes
  obtain ⟨⟨n, hn, hle⟩, -⟩ := hcount ⟨"\"a\"", false⟩ List.mem_cons_self
  have htwice : List.countP (fun e : Entry => decide (e.key = "\"a\""))
      [⟨"\"a\"", false⟩, ⟨"\"b\"", false⟩, ⟨"\"a\"", false⟩] = 2 := by decide
  rw [hcopies, htwice] at hle
  rw [hcopies] at hunused
  exact ⟨hw, hsource, hcopies, ⟨n, hn, hle⟩, hunused (Nat.lt_succ_self 1)⟩

end Config

end KeyAudit
