import Mathlib
import KeyAudit.Proofs.Audit.Counting
import KeyAudit.Proofs.Walk.Idle
import KeyAudit.Proofs.Walk.Selection

/-!
# Laws of counting

If a walk does not fail, a key is counted on as many lines as there are places where it stands
(`linesHolding`): pairs of a file of the walk and the number of a line of this file that is the
key with something before and behind it. A line is counted once, however often it holds the
key, and a file is counted once for each path that the walk finds it on.

As no walk finds a file twice, a count is a sum over files (`countIn_walkedLines`), and how the
files of two walks compare decides about their counts:

* a key that is a piece of another one stands on all of its lines;
* the extensions of a walk share out its files, and so the count;
* a walk that is not recursive finds a part of the files;
* an entry that is idle (`IsIdle`) has no lines, and changes nothing else.

The laws are put together in `counting_laws`.
-/

namespace KeyAudit.FileSystem

/-- A key is counted on a number of lines. -/
def Counts (fs : FileSystem) (options : WalkOptions) (root : Path) (key : Text) (n : Nat) : Prop :=
  (occurrences fs options root key).outcome = .ok n

/-- The places where a key stands: the files of a walk with the numbers of the lines that are
    the key with something before and behind it. -/
def linesHolding (fs : FileSystem) (options : WalkOptions) (root : Path) (key : Text) :
    Set (Path × Nat) :=
  {place | place.1 ∈ (fs.walk options root).files ∧ ∃ lines before behind,
    (fs.lines place.1).outcome = .ok lines ∧
      lines[place.2]? = some (before ++ key ++ behind)}

variable {fs fs' : FileSystem} {options options' : WalkOptions} {root p : Path} {key key' : Text}
  {recursive : Bool}

theorem counts_iff (hw : (fs.walk options root).failure = none) {n : Nat} :
    fs.Counts options root key n ↔ n = countIn key (fs.walkedLines options root) := by
  rw [Counts, outcome_occurrences hw, Except.ok.injEq]
  exact eq_comm

/-! ## Places -/

/-- The numbers of the lines that hold a key. -/
def numbersIn (key : Text) (lines : List Text) : Finset Nat :=
  (Finset.range lines.length).filter fun i => ∃ line ∈ lines[i]?, Text.occurs key line

theorem mem_numbersIn {lines : List Text} {i : Nat} :
    i ∈ numbersIn key lines ↔ ∃ before behind, lines[i]? = some (before ++ key ++ behind) := by
  rw [numbersIn, Finset.mem_filter, Finset.mem_range]
  constructor
  · rintro ⟨-, line, hline, hkey⟩
    obtain ⟨before, behind, rfl⟩ := Text.occurs_iff.1 hkey
    exact ⟨before, behind, hline⟩
  · rintro ⟨before, behind, hline⟩
    exact ⟨(List.getElem?_eq_some_iff.1 hline).1, _, hline,
      Text.occurs_iff.2 ⟨before, behind, rfl⟩⟩

theorem card_numbersIn (key : Text) (lines : List Text) :
    (numbersIn key lines).card = countIn key lines := by
  induction lines using List.reverseRecOn with
  | nil => rfl
  | append_singleton lines line ih =>
    -- The numbers of the other lines are the same, and the last one is that of the new line.
    have hsame : ∀ i ∈ Finset.range lines.length,
        ((∃ l ∈ (lines ++ [line])[i]?, Text.occurs key l) ↔
          ∃ l ∈ lines[i]?, Text.occurs key l) := fun i hi => by
      rw [List.getElem?_append_left (Finset.mem_range.1 hi)]
    have hlast : (∃ l ∈ (lines ++ [line])[lines.length]?, Text.occurs key l) ↔
        Text.occurs key line := by simp
    have hnumbers : numbersIn key (lines ++ [line]) =
        if Text.occurs key line then insert lines.length (numbersIn key lines)
        else numbersIn key lines := by
      rw [numbersIn, numbersIn, List.length_append, List.length_singleton,
        Finset.range_add_one, Finset.filter_insert, Finset.filter_congr hsame]
      simp only [hlast]
    have hnew : lines.length ∉ numbersIn key lines := fun hm =>
      absurd (Finset.mem_range.1 (Finset.mem_filter.1 hm).1) (Nat.lt_irrefl _)
    rw [countIn_append, ← ih, hnumbers]
    cases hkey : Text.occurs key line with
    | true => simp [countIn, hkey, Finset.card_insert_of_notMem hnew]
    | false => simp [countIn, hkey]

/-- A count is the sum of the counts in the files of a walk. -/
theorem countIn_walkedLines (fs : FileSystem) (options : WalkOptions) (root : Path) (key : Text) :
    countIn key (fs.walkedLines options root) =
      ∑ p ∈ (fs.walk options root).files.toFinset, countIn key (fs.linesAt p) := by
  rw [List.sum_toFinset _ nodup_files_walk, walkedLines, countIn, List.countP_flatMap]
  rfl

theorem encard_linesHolding (fs : FileSystem) (options : WalkOptions) (root : Path) (key : Text) :
    (fs.linesHolding options root key).encard = countIn key (fs.walkedLines options root) := by
  have hplaces : fs.linesHolding options root key =
      (((fs.walk options root).files.toFinset.sigma fun p => numbersIn key (fs.linesAt p)).map
        (Equiv.sigmaEquivProd Path Nat).toEmbedding : Finset (Path × Nat)) := by
    ext ⟨p, i⟩
    simp only [linesHolding, Set.mem_ofPred_eq, Finset.coe_map, Set.mem_image, Finset.mem_coe,
      Finset.mem_sigma, List.mem_toFinset, mem_numbersIn]
    constructor
    · rintro ⟨hp, lines, before, behind, hlines, hline⟩
      rw [outcome_lines (unusable?_of_mem_files_walk hp)] at hlines
      cases hlines
      exact ⟨⟨p, i⟩, ⟨hp, before, behind, hline⟩, rfl⟩
    · rintro ⟨⟨q, j⟩, ⟨hp, before, behind, hline⟩, he⟩
      cases he
      exact ⟨hp, _, before, behind, outcome_lines (unusable?_of_mem_files_walk hp), hline⟩
  rw [hplaces, Set.encard_coe_eq_coe_finsetCard, Finset.card_map, Finset.card_sigma,
    countIn_walkedLines]
  simp only [card_numbersIn]

/-! ## Pieces of keys -/

theorem countIn_le_of_infix (h : key <:+: key') (lines : List Text) :
    countIn key' lines ≤ countIn key lines :=
  List.countP_mono_left fun _ _ hkey => Text.occurs_iff.2 (h.trans (Text.occurs_iff.1 hkey))

/-! ## Files of several walks -/

/-- A walk that finds a part of the files counts a key on fewer lines at most. -/
theorem countIn_walkedLines_le
    (h : (fs.walk options' root).files ⊆ (fs.walk options root).files) (key : Text) :
    countIn key (fs.walkedLines options' root) ≤ countIn key (fs.walkedLines options root) := by
  rw [countIn_walkedLines, countIn_walkedLines]
  exact Finset.sum_le_sum_of_subset fun p hp => List.mem_toFinset.2 (h (List.mem_toFinset.1 hp))

/-- A file has one of the extensions of two collections if it has one of the first or one of the
    second, unless one of them is empty, which would stand for all. -/
theorem hasExtension_union {E F G : List Text} (hE : E ≠ []) (hF : F ≠ [])
    (hG : ∀ x, x ∈ G ↔ x ∈ E ∨ x ∈ F) (p : Path) :
    p.hasExtension G = true ↔ p.hasExtension E = true ∨ p.hasExtension F = true := by
  have hmem : ∀ X : List Text, X ≠ [] →
      (p.hasExtension X = true ↔ Text.lower (p.suffix.drop 1) ∈ X) := fun X hX => by
    rw [Path.hasExtension, List.isEmpty_eq_false_iff.2 hX, Bool.false_or, List.contains_iff_mem]
  have hne : G ≠ [] := by
    obtain ⟨x, hx⟩ := List.exists_mem_of_ne_nil E hE
    exact List.ne_nil_of_mem ((hG x).2 (.inl hx))
  rw [hmem E hE, hmem F hF, hmem G hne, hG]

/-- No file has extensions of two collections that have none in common. -/
theorem not_hasExtension_of_disjoint {E F : List Text} (hE : E ≠ []) (hF : F ≠ [])
    (hdisj : ∀ x ∈ E, x ∉ F) (p : Path) :
    ¬(p.hasExtension E = true ∧ p.hasExtension F = true) := by
  rw [Path.hasExtension, Path.hasExtension, List.isEmpty_eq_false_iff.2 hE,
    List.isEmpty_eq_false_iff.2 hF, Bool.false_or, Bool.false_or, List.contains_iff_mem,
    List.contains_iff_mem]
  exact fun h => hdisj _ h.1 h.2

/-- Two collections of extensions without a common one share out the count. -/
theorem countIn_walkedLines_union {E F G : List Text} (hE : E ≠ []) (hF : F ≠ [])
    (hdisj : ∀ x ∈ E, x ∉ F) (hG : ∀ x, x ∈ G ↔ x ∈ E ∨ x ∈ F) (fs : FileSystem)
    (recursive : Bool) (root : Path) (key : Text) :
    countIn key (fs.walkedLines ⟨G, recursive⟩ root) =
      countIn key (fs.walkedLines ⟨E, recursive⟩ root) +
        countIn key (fs.walkedLines ⟨F, recursive⟩ root) := by
  have hfiles : ∀ X, (fs.walk ⟨X, recursive⟩ root).files.toFinset =
      (fs.walk ⟨[], recursive⟩ root).files.toFinset.filter (·.hasExtension X) := fun X => by
    rw [walk_extensions, Walk.filter, List.toFinset_filter]
  rw [countIn_walkedLines, countIn_walkedLines, countIn_walkedLines, hfiles G, hfiles E, hfiles F]
  simp only [hasExtension_union hE hF hG, Finset.filter_or]
  refine Finset.sum_union (Finset.disjoint_filter.2 fun p _ hp hp' => ?_)
  exact not_hasExtension_of_disjoint hE hF hdisj p ⟨hp, hp'⟩

/-! ## Idle entries -/

/-- The lines of a path that does not come by the entry are the same without it. -/
theorem Adds.linesAt {directory : Location} {name : Text} (h : fs.Adds fs' directory name)
    (hp : name :: directory ∉ fs'.pathWay p) : fs'.linesAt p = fs.linesAt p := by
  have htext := fun t => h.text_eq_ok_iff hp (t := t)
  rw [FileSystem.linesAt, FileSystem.linesAt]
  cases ht : fs.text p with
  | ok t => rw [(htext t).2 ht]
  | error error =>
    cases ht' : fs'.text p with
    | ok t => cases ht.symm.trans ((htext t).1 ht')
    | error error' => rfl

/-- An idle entry does not change a count. -/
theorem Adds.countIn_walkedLines {directory l : Location} {name : Text}
    (h : fs.Adds fs' directory name) (hi : fs'.IsIdle options root directory name)
    (hroot : name :: directory ∉ fs'.pathWay root) (htop : fs.resolve root = .ok l)
    (hw : (fs.walk options root).failure = none) (key : Text) :
    countIn key (fs'.walkedLines options root) = countIn key (fs.walkedLines options root) := by
  have hw' := (h.failure_eq_none_iff hi hroot htop).2 hw
  rw [FileSystem.countIn_walkedLines, FileSystem.countIn_walkedLines]
  symm
  calc ∑ p ∈ (fs.walk options root).files.toFinset, countIn key (fs.linesAt p)
    _ = ∑ p ∈ (fs.walk options root).files.toFinset, countIn key (fs'.linesAt p) := by
      refine Finset.sum_congr rfl fun p hp => ?_
      have hfinds := (mem_files_walk_iff hw).1 (List.mem_toFinset.1 hp)
      rw [h.linesAt (h.finds_of_finds hi hroot htop hfinds).2]
    _ = ∑ p ∈ (fs'.walk options root).files.toFinset, countIn key (fs'.linesAt p) := by
      refine Finset.sum_subset (fun p hp => ?_) fun p hp hnot => ?_
      · have hfinds := (mem_files_walk_iff hw).1 (List.mem_toFinset.1 hp)
        exact List.mem_toFinset.2
          ((mem_files_walk_iff hw').2 (h.finds_of_finds hi hroot htop hfinds).1)
      · -- What is found with the entry only has no text, and so no lines.
        have hfinds' := (mem_files_walk_iff hw').1 (List.mem_toFinset.1 hp)
        rcases h.finds_or_text_eq_error hi hroot htop hfinds' with hfinds | ⟨error, he⟩
        · exact absurd (List.mem_toFinset.2 ((mem_files_walk_iff hw).2 hfinds)) hnot
        · rw [FileSystem.linesAt, he]
          rfl

/-! ## The laws -/

/-- Counts after a walk that does not fail. A key is counted on as many lines as there are places
    where it stands. Then

    * a key of which it is a piece is counted on no more lines;
    * with extensions that are those of two collections without a common one, every count is the
      sum of those with the two;
    * a walk that is not recursive counts no more lines than a recursive one;
    * it makes no difference if an idle entry is added or taken away. Only one that leads to a
      directory, which the walk may not ask for, can be on the way to the root; then it stays. -/
theorem counting_laws (fs : FileSystem) (extensions : List Text) (recursive : Bool) (root : Path)
    (hw : (fs.walk ⟨extensions, recursive⟩ root).failure = none) (key : Text) :
    ∃ n, fs.Counts ⟨extensions, recursive⟩ root key n ∧
      (fs.linesHolding ⟨extensions, recursive⟩ root key).encard = n ∧
      (∀ key', key <:+: key' → ∃ m ≤ n, fs.Counts ⟨extensions, recursive⟩ root key' m) ∧
      (∀ E F G : List Text, E ≠ [] → F ≠ [] → (∀ x ∈ E, x ∉ F) → (∀ x, x ∈ G ↔ x ∈ E ∨ x ∈ F) →
        ∃ e f, fs.Counts ⟨E, recursive⟩ root key e ∧ fs.Counts ⟨F, recursive⟩ root key f ∧
          fs.Counts ⟨G, recursive⟩ root key (e + f)) ∧
      (recursive = true → ∃ m ≤ n, fs.Counts ⟨extensions, false⟩ root key m) ∧
      (∀ (fs' : FileSystem) directory name, fs.Adds fs' directory name →
        fs'.IsIdle ⟨extensions, recursive⟩ root directory name →
        fs'.Counts ⟨extensions, recursive⟩ root key n) ∧
      (∀ (fs' : FileSystem) directory name, fs'.Adds fs directory name →
        fs.IsIdle ⟨extensions, recursive⟩ root directory name →
        (fs.LeadsToDirectory (name :: directory) → name :: directory ∉ fs.pathWay root) →
        fs'.Counts ⟨extensions, recursive⟩ root key n) := by
  have hall : ∀ X, (fs.walk ⟨X, recursive⟩ root).failure = none := fun X => by
    rw [walk_extensions] at hw ⊢
    exact hw
  refine ⟨_, (counts_iff hw).2 rfl, encard_linesHolding .., fun key' h => ?_,
    fun E F G hE hF hdisj hG => ?_, ?_, fun fs' directory name h hi => ?_,
    fun fs' directory name h hi hdir => ?_⟩
  · exact ⟨_, countIn_le_of_infix h _, (counts_iff hw).2 rfl⟩
  · exact ⟨_, _, (counts_iff (hall E)).2 rfl, (counts_iff (hall F)).2 rfl,
      (counts_iff (hall G)).2 (countIn_walkedLines_union hE hF hdisj hG fs recursive root key).symm⟩
  · rintro rfl
    have hflat := walk_not_recursive hw
    have hw' : (fs.walk ⟨extensions, false⟩ root).failure = none := hflat ▸ hw
    refine ⟨_, countIn_walkedLines_le ?_ key, (counts_iff hw').2 rfl⟩
    rw [hflat]
    exact List.filter_sublist.subset
  · obtain ⟨l, htop, -⟩ := exists_directory_of_walk hw
    have hroot := h.notMem_pathWay_root hw
    exact (counts_iff ((h.failure_eq_none_iff hi hroot htop).2 hw)).2
      (h.countIn_walkedLines hi hroot htop hw key).symm
  · obtain ⟨l, htop, -⟩ := exists_directory_of_walk hw
    have hroot := h.notMem_pathWay_root_of_leadsToDirectory hw hdir
    rw [h.resolve hroot] at htop
    have hw' := (h.failure_eq_none_iff hi hroot htop).1 hw
    exact (counts_iff hw').2 (h.countIn_walkedLines hi hroot htop hw' key)

/-- A directory with two files in which a key stands on three lines, and a link to the directory
    around it. -/
def counted : FileSystem where
  nodes := [(["d"], .directory), (["up", "d"], .link ".."),
    (["a.m", "d"], .file "k k\nkk\n".toUTF8), (["b.n", "d"], .file "k".toUTF8)]
  denied := []
  workingDirectory := []
  distinct := by decide
  named := by decide

/-- The same with a file that is no text. -/
def countedWithNoText : FileSystem := counted.put ["x", "d"] (.file ⟨#[0xFF]⟩)

theorem adds_countedWithNoText : counted.Adds countedWithNoText ["d"] "x" :=
  adds_put (by decide) (by decide) nofun

theorem isIdle_countedWithNoText (options : WalkOptions) (root : Path) :
    countedWithNoText.IsIdle options root ["d"] "x" := by
  have hn : countedWithNoText.node? ["x", "d"] = some (.file ⟨#[0xFF]⟩) := rfl
  have hfault : ∃ fault, Text.Utf8.decode [0xFF] = .error fault := ⟨_, rfl⟩
  have hways : (countedWithNoText.nodes.map fun n => countedWithNoText.linkWay n.1) =
      ([[], [["d"], []], [], [], []] : List (List Location)) := by cbv
  refine isIdle_of_file hn (by decide) (by decide) (.inr (.inl hfault)) fun l _ => ?_
  refine notMem_linkWay (fun n hn' => ?_) l
  have hway := List.mem_map_of_mem (f := fun n => countedWithNoText.linkWay n.1) hn'
  rw [hways] at hway
  revert hway
  generalize countedWithNoText.linkWay n.1 = way
  revert way
  decide

/-- The key stands on three lines, of which one is its own, one is that of a longer key, and one
    is in a file with another extension. They are counted once, as the walk skips its own root
    behind the link, and the file that is no text adds none. -/
theorem counting_laws_counted :
    let root := Path.ofText "d"
    (counted.walk ⟨[], true⟩ root).failure = none ∧ counted.Counts ⟨[], true⟩ root "k" 3 ∧
      (counted.linesHolding ⟨[], true⟩ root "k").encard = 3 ∧
      (∃ m ≤ 3, counted.Counts ⟨[], true⟩ root "kk" m) ∧
      (∃ e f, counted.Counts ⟨["m"], true⟩ root "k" e ∧ counted.Counts ⟨["n"], true⟩ root "k" f ∧
        counted.Counts ⟨["m", "n"], true⟩ root "k" (e + f)) ∧
      (∃ m ≤ 3, counted.Counts ⟨[], false⟩ root "k" m) ∧
      counted.Adds countedWithNoText ["d"] "x" ∧
      countedWithNoText.IsIdle ⟨[], true⟩ root ["d"] "x" ∧
      countedWithNoText.Counts ⟨[], true⟩ root "k" 3 ∧
      ¬countedWithNoText.LeadsToDirectory ["x", "d"] ∧
      ∃ n, countedWithNoText.Counts ⟨[], true⟩ root "kk" n ∧
        counted.Counts ⟨[], true⟩ root "kk" n := by
  intro root
  have hw : (counted.walk ⟨[], true⟩ root).failure = none := by cbv
  have hthree : countIn "k" (counted.walkedLines ⟨[], true⟩ root) = 3 := by cbv
  have hidle := isIdle_countedWithNoText ⟨[], true⟩ root
  have hroot := adds_countedWithNoText.notMem_pathWay_root hw
  obtain ⟨top, htop, -⟩ := exists_directory_of_walk hw
  have hw' := (adds_countedWithNoText.failure_eq_none_iff hidle hroot htop).2 hw
  have hfile : ¬countedWithNoText.LeadsToDirectory ["x", "d"] := by
    rintro ⟨target, k, hlink, -⟩
    cases hlink
  obtain ⟨n, hn, hplaces, hpieces, hextensions, hflat, hadded, -⟩ :=
    counting_laws counted [] true root hw "k"
  cases ((counts_iff hw).1 hn).trans hthree
  obtain ⟨m, hm, -, -, -, -, -, hremoved⟩ := counting_laws countedWithNoText [] true root hw' "kk"
  exact ⟨hw, hn, hplaces, hpieces "kk" (by decide),
    hextensions ["m"] ["n"] ["m", "n"] (by decide) (by decide) (by decide) (by simp), hflat rfl,
    adds_countedWithNoText, hidle, hadded _ _ _ adds_countedWithNoText hidle, hfile,
    m, hm, hremoved _ _ _ adds_countedWithNoText hidle fun h => absurd h hfile⟩

end KeyAudit.FileSystem
