import Mathlib.Data.List.Nodup
import KeyAudit.Assignment
import KeyAudit.Proofs.FileSystem.Alike

/-!
# Listed in another order

Two file systems that have the same nodes may still list them in different orders
(`Reorders`). Nothing else tells them apart: paths lead to the same places, and there is
the same to be read. A directory that can be listed in one of them can be listed in the
other, with the same entries in some order (`perm_of_list`).
-/

namespace KeyAudit.FileSystem

/-- Two file systems only differ in the order in which directories list their entries. -/
structure Reorders (fs fs' : FileSystem) : Prop where
  node : ∀ l, fs'.node? l = fs.node? l
  denied : ∀ access l, (access, l) ∈ fs'.denied ↔ (access, l) ∈ fs.denied
  workingDirectory : fs'.workingDirectory = fs.workingDirectory

/-- Below the top there are nodes at the locations of nodes only. -/
theorem node?_eq_none_iff {fs : FileSystem} {name : Text} {l : Location} :
    fs.node? (name :: l) = none ↔ name :: l ∉ fs.nodes.map Prod.fst := by
  rw [node?, if_neg (List.cons_ne_nil name l), List.lookup_eq_none_iff, List.mem_map]
  constructor
  · rintro h ⟨n, hn, he⟩
    exact absurd (h n hn) (by simp [he])
  · exact fun h n hn => bne_iff_ne.2 fun he => h ⟨n, hn, he.symm⟩

/-- It makes no other difference in which order nodes are made. -/
theorem reorders_of_perm {fs fs' : FileSystem} (hnodes : fs.nodes.Perm fs'.nodes)
    (hdenied : fs.denied.Perm fs'.denied)
    (hworking : fs'.workingDirectory = fs.workingDirectory) : fs.Reorders fs' where
  node l := by rw [node?, node?, ← lookup_eq_of_perm hnodes fs.distinct]
  denied _ _ := hdenied.mem_iff.symm
  workingDirectory := hworking

namespace Reorders

variable {fs fs' : FileSystem} (h : fs.Reorders fs')
include h

protected theorem symm : fs'.Reorders fs :=
  ⟨fun l => (h.node l).symm, fun access l => (h.denied access l).symm, h.workingDirectory.symm⟩

theorem alike : fs.Alike fs' := ⟨fun l => .inl (h.node l), h.denied, h.workingDirectory⟩

theorem text (p : Path) : fs'.text p = fs.text p := by
  simp only [FileSystem.text, content, h.alike.denies, h.alike.resolve, h.node]

/-! ## The same entries in some order -/

theorem entries (directory : Location) : (fs.entries directory).Perm (fs'.entries directory) := by
  refine (List.perm_ext_iff_of_nodup (fs.nodup_entries _) (fs'.nodup_entries _)).2 fun name => ?_
  rw [mem_entries, mem_entries, ← not_iff_not, ← node?_eq_none_iff, ← node?_eq_none_iff, h.node]

theorem perm_of_list {p : Path} {names : List Text} (hl : fs.list p = .ok names) :
    ∃ names', fs'.list p = .ok names' ∧ names.Perm names' := by
  obtain ⟨hp, l, hr, hd, hdenied, rfl⟩ := list_eq_ok_iff.1 hl
  refine ⟨fs'.entries l, list_eq_ok_iff.2 ⟨hp, l, ?_, ?_, ?_, rfl⟩, h.entries l⟩
  · rw [h.alike.resolve, hr]
  · rw [h.alike.hasDirectory, hd]
  · rwa [h.denied]

theorem list_eq_error_iff {p : Path} {error : AccessError} :
    fs'.list p = .error error ↔ fs.list p = .error error := by
  simp only [list, h.alike.denies, h.alike.resolve, h.alike.hasDirectory]
  cases p.unusable? with
  | some error => exact Iff.rfl
  | none =>
    dsimp only
    split
    · exact Iff.rfl
    · split
      · exact Iff.rfl
      · split
        · exact iff_of_false (fun h => by cases h) (fun h => by cases h)
        · exact Iff.rfl

end Reorders

end KeyAudit.FileSystem
