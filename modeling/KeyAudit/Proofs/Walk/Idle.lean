import Mathlib
import KeyAudit.Proofs.FileSystem.Content
import KeyAudit.Proofs.FileSystem.Way
import KeyAudit.Proofs.FileSystem.Reordering

/-!
# Entries that a walk passes by

A file system may have one entry more than another one, a file or a link (`Adds`). Paths whose
ways do not come by this entry lead to the same ends in both (`Adds.resolve`), with the same to
be found there.

The entry is *idle* for a walk (`IsIdle`) if this finds neither a directory nor a text that it
looks for at it, and no other link leads anywhere by way of it. Then nothing else that is listed
in a directory of the walk comes by the entry (`Adds.notMem_pathWay_child`). So the walk has the
same chains with and without it (`Adds.chain_iff`), it fails in both cases or in none
(`Adds.failure_eq_none_iff`), and it finds the same files, but for paths to the entry itself
(`Adds.finds_of_finds`, `Adds.finds_or_text_eq_error`).

What is put at a free place is added (`adds_put`), and a file is idle that cannot be read, is no
text or has none of the extensions that are looked for, unless links lead by way of it
(`isIdle_of_file`).
-/

namespace KeyAudit.FileSystem

/-- A file system has an entry, which is no directory of its own, that another one does not
    have, and is like that one elsewhere. -/
structure Adds (fs fs' : FileSystem) (directory : Location) (name : Text) : Prop where
  entry : ∃ node, fs'.node? (name :: directory) = some node ∧ node ≠ .directory
  /-- The directory has no other entry with the name, however this is spelled. -/
  free : ∀ n ∈ fs.entries directory, n ≠ name ∧ FileName.canonical n ≠ name
  node : ∀ l, l ≠ name :: directory → fs'.node? l = fs.node? l
  denied : ∀ access l, l ≠ name :: directory →
    ((access, l) ∈ fs'.denied ↔ (access, l) ∈ fs.denied)
  workingDirectory : fs'.workingDirectory = fs.workingDirectory

/-- On no path does a walk find a directory at an entry, or a text in it that it looks for; and
    no other link leads anywhere by way of it. -/
structure IsIdle (fs : FileSystem) (options : WalkOptions) (root : Path) (directory : Location)
    (name : Text) : Prop where
  entry : ∀ d ds, fs.Chain options.recursive root (d :: ds) → fs.resolve d = .ok directory →
    fs.isDirectory (d.child name) = false ∧
      ((d.child name).hasExtension options.extensions = false ∨
        ∃ error, fs.text (d.child name) = .error error)
  passed : ∀ l, l ≠ name :: directory → name :: directory ∉ fs.linkWay l

/-- The text of a file is its content, if that can be decoded. -/
theorem text_eq_ok_iff {fs : FileSystem} {p : Path} {t : Text} :
    fs.text p = .ok t ↔ ∃ bytes, fs.content p = .ok bytes ∧
      ∃ characters, Text.Utf8.decode bytes.data.toList = .ok characters ∧
        Text.ofChars characters = t := by
  rw [text]
  cases fs.content p with
  | error error => simp
  | ok bytes =>
    cases hd : Text.Utf8.decode bytes.data.toList with
    | error fault => simp [hd]
    | ok characters => simp [hd]

/-- The root of a walk that does not fail leads to a directory. -/
theorem exists_directory_of_walk {fs : FileSystem} {options : WalkOptions} {root : Path}
    (hw : (fs.walk options root).failure = none) :
    ∃ l, fs.resolve root = .ok l ∧ fs.hasDirectory l = true := by
  obtain ⟨names, hl, -⟩ := walkFrom_of_failure_eq_none hw
  obtain ⟨-, l, hr, hd, -⟩ := list_eq_ok_iff.1 hl
  exact ⟨l, hr, hd⟩

namespace Adds

variable {fs fs' : FileSystem} {directory l k : Location} {name n : Text} {p d root : Path}
  {options : WalkOptions} {c : List Path}

section

variable (h : fs.Adds fs' directory name)
include h

theorem node?_eq_none : fs.node? (name :: directory) = none :=
  node?_eq_none_iff.2 fun hm => (h.free name (FileSystem.mem_entries.2 hm)).1 rfl

theorem hasDirectory_entry : fs'.hasDirectory (name :: directory) = false := by
  obtain ⟨node, hn, hnode⟩ := h.entry
  rw [FileSystem.hasDirectory, hn]
  cases node with
  | directory => exact absurd rfl hnode
  | file content => rfl
  | link target => rfl

theorem hasDirectory (l : Location) : fs'.hasDirectory l = fs.hasDirectory l := by
  by_cases hl : l = name :: directory
  · rw [hl, h.hasDirectory_entry, FileSystem.hasDirectory, h.node?_eq_none]
  · exact hasDirectory_congr (h.node l hl)

theorem admits (l : Location) : fs'.admits l = fs.admits l := by
  rw [Bool.eq_iff_iff, admits_iff, admits_iff, h.hasDirectory]
  refine and_congr_right fun hl => not_congr (h.denied _ _ ?_)
  exact (ne_of_hasDirectory (h.hasDirectory_entry ▸ (h.hasDirectory _).symm) hl).symm

theorem start (a : Anchor) : fs'.start a = fs.start a := by
  cases a with
  | workingDirectory => exact h.workingDirectory
  | top => rfl
  | doubleTop => rfl

theorem mem_entries (l : Location) (n : Text) :
    n ∈ fs'.entries l ↔ n ∈ fs.entries l ∨ (n = name ∧ l = directory) := by
  rw [FileSystem.mem_entries, FileSystem.mem_entries, ← not_iff_not, not_or, ← node?_eq_none_iff,
    ← node?_eq_none_iff]
  by_cases hl : n :: l = name :: directory
  · obtain ⟨rfl, rfl⟩ := List.cons.inj hl
    obtain ⟨node, hn, -⟩ := h.entry
    simp [hn]
  · rw [h.node _ hl]
    exact (and_iff_left fun he => hl (by rw [he.1, he.2])).symm

/-! ## Paths that do not come by the entry -/

/-- A path that leads somewhere without the entry does not come by it. -/
theorem notMem_pathWay_of_resolve (hp : fs.resolve p = .ok l) (hl : l ≠ name :: directory) :
    name :: directory ∉ fs'.pathWay p := by
  rw [FileSystem.resolve] at hp
  split at hp
  · cases hp
  · have hway := (leads_of_follow hp).notMem_way h.node?_eq_none (Ne.symm hl)
    have hnodes : ∀ k ∈ fs.way linkLimit (fs.start p.anchor) p.names,
        fs'.node? k = fs.node? k := fun k hk => h.node k fun he => hway (he ▸ hk)
    rwa [pathWay, h.start, (follow_eq_of_way hnodes fun k _ => h.admits k).2]

theorem resolve (hp : name :: directory ∉ fs'.pathWay p) : fs'.resolve p = fs.resolve p := by
  have hnodes : ∀ k ∈ fs'.way linkLimit (fs.start p.anchor) p.names,
      fs.node? k = fs'.node? k := fun k hk =>
    (h.node k fun he => hp (by rwa [pathWay, h.start, ← he])).symm
  rw [FileSystem.resolve, FileSystem.resolve, h.start,
    (follow_eq_of_way hnodes fun k _ => (h.admits k).symm).1]

theorem realPath (hp : name :: directory ∉ fs'.pathWay p) (hr : fs.resolve p = .ok l) :
    fs'.realPath p = fs.realPath p := by
  rw [realPath_of_resolve hr, realPath_of_resolve ((h.resolve hp).trans hr)]

theorem isDirectory (hp : name :: directory ∉ fs'.pathWay p) :
    fs'.isDirectory p = fs.isDirectory p := by
  refine Bool.eq_iff_iff.2 ?_
  rw [isDirectory_iff, isDirectory_iff]
  refine and_congr_right fun _ => exists_congr fun l => ?_
  rw [h.resolve hp, h.hasDirectory]
  exact and_congr_right fun hr => and_congr_right fun _ =>
    not_congr (h.denied _ l (ne_of_resolve hp ((h.resolve hp).trans hr)))

theorem text_eq_ok_iff (hp : name :: directory ∉ fs'.pathWay p) {t : Text} :
    fs'.text p = .ok t ↔ fs.text p = .ok t := by
  have hcontent : ∀ bytes, fs'.content p = .ok bytes ↔ fs.content p = .ok bytes := fun bytes => by
    rw [content_eq_ok_iff, content_eq_ok_iff]
    refine and_congr_right fun _ => exists_congr fun l => ?_
    rw [h.resolve hp]
    refine and_congr_right fun hr => ?_
    have hl := ne_of_resolve hp ((h.resolve hp).trans hr)
    rw [h.denied _ l hl, h.node l hl]
  rw [FileSystem.text_eq_ok_iff, FileSystem.text_eq_ok_iff]
  exact exists_congr fun bytes => and_congr_left fun _ => hcontent bytes

/-- A directory can be listed with the entry if it can be listed without it. -/
theorem list_eq_ok_iff (hp : name :: directory ∉ fs'.pathWay p) (hr : fs.resolve p = .ok l) :
    fs'.list p = .ok (fs'.entries l) ↔ fs.list p = .ok (fs.entries l) := by
  have hr' := (h.resolve hp).trans hr
  have hdenied := h.denied .list l (ne_of_resolve hp hr')
  rw [FileSystem.list_eq_ok_iff, FileSystem.list_eq_ok_iff, hr, hr']
  refine and_congr_right fun _ => exists_congr fun k => ?_
  rw [h.hasDirectory]
  constructor
  · rintro ⟨hk, hd, hden, -⟩
    cases hk
    exact ⟨rfl, hd, mt hdenied.2 hden, rfl⟩
  · rintro ⟨hk, hd, hden, -⟩
    cases hk
    exact ⟨rfl, hd, mt hdenied.1 hden, rfl⟩

theorem list_error_iff (hp : name :: directory ∉ fs'.pathWay p) (hr : fs.resolve p = .ok l) :
    (∃ error, fs'.list p = .error error) ↔ ∃ error, fs.list p = .error error := by
  have hiff := h.list_eq_ok_iff hp hr
  have hentries : ∀ {fs : FileSystem} {names}, fs.resolve p = .ok l → fs.list p = .ok names →
      fs.list p = .ok (fs.entries l) := fun hr hl => by
    rw [hl, ← entries_of_list hl, realPath_of_resolve hr]
  constructor
  · rintro ⟨error, he⟩
    cases hl : fs.list p with
    | error error => exact ⟨error, rfl⟩
    | ok names => cases he.symm.trans (hiff.2 (hentries hr hl))
  · rintro ⟨error, he⟩
    cases hl : fs'.list p with
    | error error => exact ⟨error, rfl⟩
    | ok names => cases he.symm.trans (hiff.1 (hentries ((h.resolve hp).trans hr) hl))

/-- What an entry of a directory stands for does not come by the idle entry, if neither the
    directory does nor any link. -/
theorem notMem_pathWay_child (hd : name :: directory ∉ fs'.pathWay d)
    (hpassed : ∀ l, l ≠ name :: directory → name :: directory ∉ fs'.linkWay l)
    (hr : fs.resolve d = .ok l) (hl : fs.hasDirectory l = true) (hn : n ∈ fs.entries l) :
    name :: directory ∉ fs'.pathWay (d.child n) := by
  intro hm
  have hnode := isNodeName_of_mem_entries hn
  simp only [isNodeName, Bool.and_eq_true, decide_eq_true_eq] at hnode
  have hthere : FileName.canonical n :: l ≠ name :: directory := fun he => by
    obtain ⟨hname, rfl⟩ := List.cons.inj he
    exact (h.free n hn).2 hname
  have hhere : name :: directory ≠ l := fun he => by
    rw [← he, ← h.hasDirectory, h.hasDirectory_entry] at hl
    cases hl
  have hr' := (h.resolve hd).trans hr
  rw [FileSystem.resolve] at hr'
  split at hr'
  · cases hr'
  · obtain ⟨used, hu, hway⟩ := (leads_of_follow hr').way_append
    have hmem := hway (linkLimit - used) [n]
    rw [Nat.add_sub_cancel' hu] at hmem
    -- The way comes by what the directory comes by, and by what the name comes by there.
    rcases List.mem_append.1 (hmem hm) with hm | hm
    · exact hd hm
    · rcases mem_way_singleton hnode.1.2 hnode.2 (Nat.sub_le _ _) hm with he | he | hm
      · exact hhere he
      · exact hthere he.symm
      · exact hpassed _ hthere hm

end

/-! ## The same chains -/

section

variable {recursive : Bool} (h : fs.Adds fs' directory name)
include h

theorem map_realPath (htop : fs.resolve root = .ok l) (hc : fs.Chain recursive root c)
    (hways : ∀ d ∈ c, name :: directory ∉ fs'.pathWay d) :
    c.map fs'.realPath = c.map fs.realPath :=
  List.map_congr_left fun d hd => by
    obtain ⟨ds, hcd⟩ := hc.of_mem hd
    exact h.realPath (hways d hd) (hcd.resolve htop)

variable (hpassed : ∀ l, l ≠ name :: directory → name :: directory ∉ fs'.linkWay l)
  (hroot : name :: directory ∉ fs'.pathWay root) (htop : fs.resolve root = .ok l)
include hpassed hroot htop

/-- What a walk without the entry comes to does not come by it, and the walk with the entry
    comes to it, too. -/
theorem chain_of_chain (hc : fs.Chain recursive root c) :
    fs'.Chain recursive root c ∧ ∀ d ∈ c, name :: directory ∉ fs'.pathWay d := by
  induction hc with
  | root => exact ⟨.root, fun d hd => List.mem_singleton.1 hd ▸ hroot⟩
  | @enter d ds names n hc hr hl hn hd hv ih =>
    obtain ⟨hc', hways⟩ := ih
    have hway := hways d List.mem_cons_self
    obtain ⟨-, k, hk, hdir, -, rfl⟩ := FileSystem.list_eq_ok_iff.1 hl
    obtain ⟨-, m, hm, -⟩ := isDirectory_iff.1 hd
    have hchild := h.notMem_pathWay_child hway hpassed hk hdir hn
    refine ⟨.enter hc' hr ((h.list_eq_ok_iff hway hk).2 hl) ((h.mem_entries k n).2 (.inl hn))
      ((h.isDirectory hchild).trans hd) ?_, List.forall_mem_cons.2 ⟨hchild, hways⟩⟩
    rwa [h.map_realPath htop hc hways, h.realPath hchild hm]

/-- If it finds no directory at the entry, the walk with the entry comes to nothing else. -/
theorem chain_of_chain_with (hentry : ∀ d ds, fs'.Chain recursive root (d :: ds) →
      fs'.resolve d = .ok directory → fs'.isDirectory (d.child name) = false)
    (hc' : fs'.Chain recursive root c) : fs.Chain recursive root c := by
  induction hc' with
  | root => exact .root
  | @enter d ds names n hc' hr hl hn hd hv hc =>
    have hways := (h.chain_of_chain hpassed hroot htop hc).2
    have hway := hways d List.mem_cons_self
    obtain ⟨-, k, hk', hdir, -, rfl⟩ := FileSystem.list_eq_ok_iff.1 hl
    have hk := (h.resolve hway).symm.trans hk'
    rw [h.hasDirectory] at hdir
    rcases (h.mem_entries k n).1 hn with hn | ⟨rfl, rfl⟩
    · have hchild := h.notMem_pathWay_child hway hpassed hk hdir hn
      rw [h.isDirectory hchild] at hd
      obtain ⟨-, m, hm, -⟩ := isDirectory_iff.1 hd
      refine .enter hc hr ((h.list_eq_ok_iff hway hk).1 hl) hn hd ?_
      rwa [h.map_realPath htop hc hways, h.realPath hchild hm] at hv
    · -- The entry itself is no directory that makes a chain longer.
      exact absurd ((hentry d ds hc' hk').symm.trans hd) Bool.false_ne_true

end

/-! ## Walks that pass by the entry -/

section

variable (h : fs.Adds fs' directory name) (hi : fs'.IsIdle options root directory name)
  (hroot : name :: directory ∉ fs'.pathWay root) (htop : fs.resolve root = .ok l)
include h hi hroot htop

theorem chain_iff :
    fs'.Chain options.recursive root c ↔ fs.Chain options.recursive root c :=
  ⟨h.chain_of_chain_with hi.passed hroot htop fun d ds hc hd => (hi.entry d ds hc hd).1,
    fun hc => (h.chain_of_chain hi.passed hroot htop hc).1⟩

/-- The walk with the entry fails if and only if the one without it does. -/
theorem failure_eq_none_iff :
    (fs'.walk options root).failure = none ↔ (fs.walk options root).failure = none := by
  rw [← not_iff_not, ← ne_eq, ← ne_eq, failure_walk_ne_none_iff, failure_walk_ne_none_iff]
  refine exists_congr fun d => exists_congr fun ds => ?_
  rw [exists_and_left, exists_and_left, h.chain_iff hi hroot htop]
  refine and_congr_right fun hc => ?_
  have hway := (h.chain_of_chain hi.passed hroot htop hc).2 d List.mem_cons_self
  exact h.list_error_iff hway (hc.resolve htop)

/-- What the walk finds without the entry it finds with it, too, and does not come by it. -/
theorem finds_of_finds (hp : fs.Finds options root p) :
    fs'.Finds options root p ∧ name :: directory ∉ fs'.pathWay p := by
  obtain ⟨d, ds, names, n, hc, hl, hn, rfl, hd, hx⟩ := hp
  obtain ⟨hc', hways⟩ := h.chain_of_chain hi.passed hroot htop hc
  have hway := hways d List.mem_cons_self
  obtain ⟨-, k, hk, hdir, -, rfl⟩ := FileSystem.list_eq_ok_iff.1 hl
  have hchild := h.notMem_pathWay_child hway hi.passed hk hdir hn
  exact ⟨⟨d, ds, _, n, hc', (h.list_eq_ok_iff hway hk).2 hl, (h.mem_entries k n).2 (.inl hn),
    rfl, (h.isDirectory hchild).trans hd, hx⟩, hchild⟩

/-- With the entry the walk finds nothing more but paths without a text. -/
theorem finds_or_text_eq_error (hp : fs'.Finds options root p) :
    fs.Finds options root p ∨ ∃ error, fs'.text p = .error error := by
  obtain ⟨d, ds, names, n, hc', hl, hn, rfl, hd, hx⟩ := hp
  have hc := (h.chain_iff hi hroot htop).1 hc'
  have hway := (h.chain_of_chain hi.passed hroot htop hc).2 d List.mem_cons_self
  obtain ⟨-, k, hk', hdir, -, rfl⟩ := FileSystem.list_eq_ok_iff.1 hl
  have hk := (h.resolve hway).symm.trans hk'
  rw [h.hasDirectory] at hdir
  rcases (h.mem_entries k n).1 hn with hn | ⟨rfl, rfl⟩
  · have hchild := h.notMem_pathWay_child hway hi.passed hk hdir hn
    exact .inl ⟨d, ds, _, n, hc, (h.list_eq_ok_iff hway hk).1 hl, hn, rfl,
      (h.isDirectory hchild).symm.trans hd, hx⟩
  · exact .inr ((hi.entry d ds hc' hk').2.resolve_left (by rw [hx]; exact Bool.noConfusion))

end

/-! ## Roots -/

/-- The root of a walk that does not fail without the entry does not come by it. -/
theorem notMem_pathWay_root (h : fs.Adds fs' directory name)
    (hw : (fs.walk options root).failure = none) : name :: directory ∉ fs'.pathWay root := by
  obtain ⟨l, hr, hd⟩ := exists_directory_of_walk hw
  refine h.notMem_pathWay_of_resolve hr fun hl => ?_
  rw [hl, ← h.hasDirectory, h.hasDirectory_entry] at hd
  cases hd

/-- The root of a walk that does not fail with the entry only comes by it if it leads to a
    directory. -/
theorem notMem_pathWay_root_of_leadsToDirectory (h : fs.Adds fs' directory name)
    (hw : (fs'.walk options root).failure = none)
    (hdir : fs'.LeadsToDirectory (name :: directory) → name :: directory ∉ fs'.pathWay root) :
    name :: directory ∉ fs'.pathWay root := by
  intro hm
  obtain ⟨l, hr, hd⟩ := exists_directory_of_walk hw
  rw [FileSystem.resolve] at hr
  split at hr
  · cases hr
  · exact hdir ((leads_of_follow hr).leadsToDirectory hd (Nat.le_refl _) h.hasDirectory_entry hm) hm

end Adds

/-! ## Files that are added -/

section

variable {fs : FileSystem} {options : WalkOptions} {root : Path} {directory : Location}
  {name : Text}

/-- What is put at a free place is added. -/
theorem adds_put {node : Node} (hnames : ∀ n ∈ name :: directory, isNodeName n = true)
    (hfree : ∀ n ∈ fs.entries directory, n ≠ name ∧ FileName.canonical n ≠ name)
    (hnode : node ≠ .directory) : fs.Adds (fs.put (name :: directory) node) directory name := by
  have hoccupied : ¬fs.occupied (name :: directory) = true := fun hm =>
    (hfree name (FileSystem.mem_entries.2 (List.contains_iff_mem.1 hm))).1 rfl
  have hnone : fs.nodes.lookup (name :: directory) = none := by
    have hnone := node?_eq_none_iff.2 fun hm => (hfree name (FileSystem.mem_entries.2 hm)).1 rfl
    rwa [node?, if_neg (List.cons_ne_nil _ _)] at hnone
  have hput : (fs.put (name :: directory) node).node? (name :: directory) = some node := by
    rw [node?, if_neg (List.cons_ne_nil _ _), put, dif_neg hoccupied, dif_pos hnames,
      List.lookup_append, hnone, Option.none_or, List.lookup_cons_self]
  exact {
    entry := ⟨node, hput, hnode⟩
    free := hfree
    node := fun l hl => node?_put_of_ne hl
    denied := fun access l _ => by rw [put, dif_neg hoccupied, dif_pos hnames]
    workingDirectory := workingDirectory_put fs _ node }

/-- The path of a file leads nowhere but to the file. -/
theorem resolve_child_of_file {d : Path} {l : Location} {bytes : ByteArray}
    (hn : fs.node? (name :: directory) = some (.file bytes)) (hname : isNodeName name = true)
    (hspelled : FileName.canonical name = name) (hd : fs.resolve d = .ok directory)
    (hr : fs.resolve (d.child name) = .ok l) : l = name :: directory := by
  simp only [isNodeName, Bool.and_eq_true, decide_eq_true_eq] at hname
  rw [resolve] at hd hr
  split at hd
  · cases hd
  split at hr
  · cases hr
  obtain ⟨used, hu, hfollow⟩ := follow_append hd
  have hlast := hfollow (linkLimit - used) [name]
  rw [Nat.add_sub_cancel' hu] at hlast
  have hleads := leads_of_follow (hlast.symm.trans hr)
  generalize linkLimit - used = more at hleads
  cases hleads with
  | stays => exact absurd rfl hname.1.2
  | leaves => exact absurd rfl hname.2
  | links _ _ hlink _ =>
    rw [hspelled, hn] at hlink
    cases hlink
  | enters _ _ _ _ hleads =>
    cases hleads
    rw [hspelled]

/-- A file is idle that cannot be read, has no text or none of the extensions that a walk looks
    for. -/
theorem isIdle_of_file {bytes : ByteArray}
    (hn : fs.node? (name :: directory) = some (.file bytes)) (hname : isNodeName name = true)
    (hspelled : FileName.canonical name = name)
    (hsilent : (Access.read, name :: directory) ∈ fs.denied ∨
      (∃ fault, Text.Utf8.decode bytes.data.toList = .error fault) ∨
      ((pathOf directory).child name).hasExtension options.extensions = false)
    (hpassed : ∀ l, l ≠ name :: directory → name :: directory ∉ fs.linkWay l) :
    fs.IsIdle options root directory name where
  passed := hpassed
  entry d ds _ hr := by
    have hend : ∀ {l}, fs.resolve (d.child name) = .ok l → l = name :: directory :=
      resolve_child_of_file hn hname hspelled hr
    constructor
    · by_contra hd
      obtain ⟨-, l, hl, hdir, -⟩ := isDirectory_iff.1 (Bool.not_eq_false _ ▸ hd)
      rw [hend hl, hasDirectory, hn] at hdir
      cases hdir
    · -- The extension is that of the name, whatever path leads to the directory.
      rw [or_iff_not_imp_left, Path.hasExtension_child,
        ← Path.hasExtension_child _ (pathOf directory)]
      intro hx
      cases ht : fs.text (d.child name) with
      | error error => exact ⟨error, rfl⟩
      | ok t =>
        obtain ⟨bytes', hcontent, characters, hdecode, -⟩ := text_eq_ok_iff.1 ht
        obtain ⟨-, l, hl, hread, hn'⟩ := content_eq_ok_iff.1 hcontent
        rw [hend hl] at hread hn'
        cases hn.symm.trans hn'
        rcases hsilent with hdenied | ⟨fault, hfault⟩ | hextension
        · exact absurd hdenied hread
        · cases hfault.symm.trans hdecode
        · exact absurd hextension hx

end

end KeyAudit.FileSystem
