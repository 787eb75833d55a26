import KeyAudit.FileSystem.Edit
import KeyAudit.FileSystem.Walk
import KeyAudit.Proofs.FileSystem.Alike

/-!
# Another content

If a file is given another content, its file system stays as it is in all other respects:
the tree is the same (`alike_put`), directories list the same entries, and so walks go the
same way (`walk_put`). Only paths that lead to this very file have another content
(`text_put`).
-/

namespace KeyAudit.FileSystem

variable {fs fs' : FileSystem} {l : Location} {n m : Node} {p q : Path} {x y : ByteArray}

/-- A path leads to a file with some octets, whether it may be read or not. -/
def Holds (fs : FileSystem) (p : Path) (bytes : ByteArray) : Prop :=
  p.unusable? = none ∧ ∃ l, fs.resolve p = .ok l ∧ fs.node? l = some (.file bytes)

/-- What a path leads to can be read unless reading is denied. -/
theorem Holds.content_eq (h : fs.Holds p x) :
    fs.content p =
      if fs.denies .read p then .error (.refused .permissionDenied p.toText) else .ok x := by
  obtain ⟨hp, l, hl, hn⟩ := h
  simp only [content, hp, hl, hn]

/-! ## A node in place of another one -/

theorem lookup_map_replaceNode {ms : List (Location × Node)} (hl : ms.lookup l = some m) :
    (ms.map (replaceNode l n)).lookup l = some n := by
  induction ms with
  | nil => cases hl
  | cons first ms ih =>
    rw [List.map_cons, replaceNode]
    by_cases hfirst : first.1 = l
    · rw [if_pos hfirst, List.lookup_cons_self]
    · have hne : (l == first.1) = false := beq_false_of_ne (Ne.symm hfirst)
      rw [List.lookup_cons, hne] at hl
      rw [if_neg hfirst, List.lookup_cons, hne]
      exact ih hl

theorem lookup_map_replaceNode_of_ne {k : Location} (hk : k ≠ l) (ms : List (Location × Node)) :
    (ms.map (replaceNode l n)).lookup k = ms.lookup k := by
  induction ms with
  | nil => rfl
  | cons first ms ih =>
    rw [List.map_cons, replaceNode, List.lookup_cons, List.lookup_cons, ih]
    by_cases hfirst : first.1 = l
    · have hne : (k == l) = false := beq_false_of_ne hk
      rw [if_pos hfirst, hfirst, hne]
    · rw [if_neg hfirst]

theorem ne_nil_of_file (h : fs.node? l = some (.file x)) : l ≠ [] := by
  rintro rfl
  cases h

theorem nodes_put (h : fs.node? l = some (.file x)) :
    (fs.put l n).nodes = fs.nodes.map (replaceNode l n) := by
  rw [node?, if_neg (ne_nil_of_file h)] at h
  have hoccupied : fs.occupied l = true := List.contains_iff_mem.2 (mem_of_lookup h)
  rw [put, dif_pos hoccupied]

theorem node?_put (h : fs.node? l = some (.file x)) : (fs.put l n).node? l = some n := by
  have hl := ne_nil_of_file h
  rw [node?, if_neg hl, nodes_put h]
  rw [node?, if_neg hl] at h
  exact lookup_map_replaceNode h

theorem node?_put_of_ne {k : Location} (hk : k ≠ l) : (fs.put l n).node? k = fs.node? k := by
  rw [node?, node?, put]
  by_cases hnil : k = []
  · rw [if_pos hnil, if_pos hnil]
  rw [if_neg hnil, if_neg hnil]
  split
  · exact lookup_map_replaceNode_of_ne hk _
  split
  · have hne : (k == l) = false := beq_false_of_ne hk
    rw [List.lookup_append, List.lookup_cons, hne, List.lookup_nil, Option.or_none]
  · rfl

theorem workingDirectory_put (fs : FileSystem) (l : Location) (n : Node) :
    (fs.put l n).workingDirectory = fs.workingDirectory := by
  rw [put]
  split
  · rfl
  · split
    · rfl
    · rfl

@[simp]
theorem denied_put (fs : FileSystem) (l : Location) (n : Node) : (fs.put l n).denied = fs.denied := by
  rw [put]
  split
  · rfl
  · split
    · rfl
    · rfl

theorem entries_put (h : fs.node? l = some (.file x)) (directory : Location) :
    (fs.put l n).entries directory = fs.entries directory := by
  have hentries : ∀ ms : List (Location × Node),
      (ms.filterMap fun n => nameIn directory n.1) = (ms.map Prod.fst).filterMap (nameIn directory) :=
    fun ms => by rw [List.filterMap_map]; rfl
  rw [entries, entries, nodes_put h, hentries, hentries, map_fst_replaceNode]

/-- Where it has a file with another content, a file system has the same tree. -/
theorem alike_put (h : fs.node? l = some (.file x)) (y : ByteArray) :
    fs.Alike (fs.put l (.file y)) where
  node k := by
    by_cases hk : k = l
    · rw [hk]
      exact .inr ⟨x, y, h, node?_put h⟩
    · exact .inl (node?_put_of_ne hk)
  denied access k := by rw [denied_put]
  workingDirectory := workingDirectory_put fs l _

/-! ## The same walks -/

namespace Alike

variable (h : fs.Alike fs') (he : ∀ directory, fs'.entries directory = fs.entries directory)
include h he

theorem list (p : Path) : fs'.list p = fs.list p := by
  simp only [FileSystem.list, h.denies, h.resolve, h.hasDirectory, he]

theorem walkEntries (options : WalkOptions) (ancestors : List Location) (ps : List Path) :
    fs'.walkEntries options ancestors ps = fs.walkEntries options ancestors ps := by
  induction ancestors, ps using FileSystem.walkEntries.induct fs options <;>
    rw [FileSystem.walkEntries, FileSystem.walkEntries] <;>
    simp_all [h.isDirectory, h.realPath, h.list he]
  case case4 ancestors p rest hd hv ih =>
    have hskip : ¬(options.recursive = true ∧ fs.realPath p ∉ ancestors) :=
      fun hv' => hv'.2 (hv hv'.1)
    rw [if_neg hskip, if_neg hskip]

theorem walk (options : WalkOptions) (root : Path) :
    fs'.walk options root = fs.walk options root := by
  simp only [FileSystem.walk, h.list he, h.walkEntries he, h.realPath]

end Alike

/-! ## Another content -/

/-- A file that is given a content has it. -/
theorem Holds.put (h : fs.Holds p x) (y : ByteArray) :
    (fs.put (fs.realPath p) (.file y)).Holds p y := by
  obtain ⟨hp, l, hl, hn⟩ := h
  rw [realPath_of_resolve hl]
  refine ⟨hp, l, ?_, ?_⟩
  · rw [(alike_put hn y).resolve, hl]
  · exact node?_put hn

/-- Paths that do not lead to the file have the same content. -/
theorem text_put (h : fs.node? l = some (.file x)) (hq : fs.resolve q ≠ .ok l) :
    (fs.put l (.file y)).text q = fs.text q := by
  have hcontent : (fs.put l (.file y)).content q = fs.content q := by
    simp only [content, (alike_put h y).denies, (alike_put h y).resolve]
    cases hr : fs.resolve q with
    | error errno => rfl
    | ok k =>
      have hk : k ≠ l := fun hk => hq (hr.trans (congrArg Except.ok hk))
      simp only [node?_put_of_ne hk]
  rw [text, text, hcontent]

end KeyAudit.FileSystem
