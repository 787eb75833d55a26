import KeyAudit.Proofs.FileSystem.Reordering
import KeyAudit.Proofs.Walk.Chain

/-!
# Walks in another order

A walk goes through directories in the order in which they are listed, and meets links in
that order. But what it finds is settled by the chains of its root, for which there is no
order (`Reorders.chain_iff`). So in a file system with another order of listing a walk
fails as well or yields the same files, in some order (`Reorders.perm_files`).
-/

namespace KeyAudit.FileSystem.Reorders

variable {fs fs' : FileSystem} (h : fs.Reorders fs') {options : WalkOptions} {root p : Path}
include h

theorem chain {recursive : Bool} {ds : List Path} (hc : fs.Chain recursive root ds) :
    fs'.Chain recursive root ds := by
  induction hc with
  | root => exact .root
  | enter hc hr hl hn hd hv ih =>
    obtain ⟨names, hl', hperm⟩ := h.perm_of_list hl
    refine .enter ih hr hl' (hperm.mem_iff.1 hn) ((h.alike.isDirectory _).trans hd) ?_
    rwa [funext h.alike.realPath]

theorem chain_iff {recursive : Bool} {ds : List Path} :
    fs'.Chain recursive root ds ↔ fs.Chain recursive root ds := ⟨h.symm.chain, h.chain⟩

theorem isObstructed_iff {recursive : Bool} :
    fs'.IsObstructed recursive root ↔ fs.IsObstructed recursive root := by
  simp only [IsObstructed, h.chain_iff, h.list_eq_error_iff]

theorem finds (hf : fs.Finds options root p) : fs'.Finds options root p := by
  obtain ⟨d, ds, names, name, hc, hl, hn, hp, hd, hx⟩ := hf
  obtain ⟨names', hl', hperm⟩ := h.perm_of_list hl
  exact ⟨d, ds, names', name, h.chain hc, hl', hperm.mem_iff.1 hn, hp,
    (h.alike.isDirectory p).trans hd, hx⟩

/-- A walk fails in both file systems or in none. -/
theorem failure_eq_none_iff :
    (fs'.walk options root).failure = none ↔ (fs.walk options root).failure = none := by
  rw [← not_iff_not, ← ne_eq, ← ne_eq, failure_walk_ne_none_iff, failure_walk_ne_none_iff,
    h.isObstructed_iff]

/-- A walk that does not fail yields the same files in both, each of them once. -/
theorem perm_files (hw : (fs.walk options root).failure = none) :
    (fs.walk options root).files.Perm (fs'.walk options root).files := by
  refine (List.perm_ext_iff_of_nodup nodup_files_walk nodup_files_walk).2 fun p => ?_
  rw [mem_files_walk_iff hw, mem_files_walk_iff (h.failure_eq_none_iff.2 hw)]
  exact ⟨h.finds, h.symm.finds⟩

/-- A walk ends in both because a directory is refused, or in none. -/
theorem isRefused_iff :
    (fs'.walk options root).IsRefused ↔ (fs.walk options root).IsRefused := by
  cases hroot : root.unusable? with
  | none =>
    rw [FileSystem.isRefused_iff hroot, FileSystem.isRefused_iff hroot, ne_eq, ne_eq,
      h.failure_eq_none_iff]
  | some error =>
    -- Nobody is asked to list the root, in whatever order.
    have hlist : ∀ gs : FileSystem, gs.list root = .error error := fun gs => by rw [list, hroot]
    rw [walk_eq_walkFrom, walk_eq_walkFrom, walkFrom_of_error (hlist fs),
      walkFrom_of_error (hlist fs')]

end KeyAudit.FileSystem.Reorders
