import Mathlib.Data.List.Nodup
import KeyAudit.FileSystem.Read

/-!
# The same tree

Two file systems may have the same directories and links, and files in the same places
(`Alike`). What is in the files does not matter for where paths lead, what is present and
what is a directory, nor does it matter in which order directories list their entries: each
of these questions has the same answer in both.
-/

namespace KeyAudit.FileSystem

/-- Two file systems differ at most in what is in their files, and in the order in which
    directories list their entries. -/
structure Alike (fs fs' : FileSystem) : Prop where
  node : ∀ l, fs'.node? l = fs.node? l ∨
    ∃ x y, fs.node? l = some (.file x) ∧ fs'.node? l = some (.file y)
  denied : ∀ access l, (access, l) ∈ fs'.denied ↔ (access, l) ∈ fs.denied
  workingDirectory : fs'.workingDirectory = fs.workingDirectory

namespace Alike

variable {fs fs' : FileSystem} (h : fs.Alike fs')
include h

theorem node?_of_none {l : Location} (hl : fs.node? l = none) : fs'.node? l = none := by
  rcases h.node l with he | ⟨x, y, hx, -⟩
  · rw [he, hl]
  · cases hl.symm.trans hx

theorem node?_eq_link_iff {l : Location} {target : Text} :
    fs'.node? l = some (.link target) ↔ fs.node? l = some (.link target) := by
  rcases h.node l with he | ⟨x, y, hx, hy⟩
  · rw [he]
  · rw [hx, hy]
    exact iff_of_false nofun nofun

theorem hasDirectory (l : Location) : fs'.hasDirectory l = fs.hasDirectory l := by
  rw [FileSystem.hasDirectory, FileSystem.hasDirectory]
  rcases h.node l with hl | ⟨x, y, hx, hy⟩
  · rw [hl]
  · rw [hx, hy]

theorem admits (l : Location) : fs'.admits l = fs.admits l := by
  rw [Bool.eq_iff_iff, admits_iff, admits_iff, h.hasDirectory, h.denied]

theorem barrier (l : Location) : fs'.barrier l = fs.barrier l := by
  rw [FileSystem.barrier, FileSystem.barrier, h.hasDirectory]

theorem start (a : Anchor) : fs'.start a = fs.start a := by
  cases a with
  | workingDirectory => exact h.workingDirectory
  | top => rfl
  | doubleTop => rfl

theorem location (t : Trail) : t.location fs' = t.location fs := by
  rw [Trail.location, Trail.location, h.workingDirectory]

theorem isOpen (fromTop : Bool) (names : List Text) :
    Trail.isOpen fs' fromTop names = Trail.isOpen fs fromTop names := by
  induction names with
  | nil => rfl
  | cons name names ih => rw [Trail.isOpen, Trail.isOpen, h.admits, h.location, ih]

theorem trail_node?_eq_link_iff {t : Trail} {target : Text} :
    t.node? fs' = some (.link target) ↔ t.node? fs = some (.link target) := by
  rw [Trail.node?, Trail.node?, h.isOpen, h.location]
  split
  · exact h.node?_eq_link_iff
  · exact Iff.rfl

/-- Every step depends on the node at one location, and what is in a file does not matter, so
    both go the same way. -/
theorem follow (budget : Nat) (here : Location) (names : List Text) :
    fs'.follow budget here names = fs.follow budget here names := by
  induction budget, here, names using FileSystem.follow.induct fs <;>
    rw [FileSystem.follow, FileSystem.follow] <;>
    simp_all +zetaDelta [h.admits, h.barrier, h.node?_of_none, h.node?_eq_link_iff.2, Nat.not_lt.2]
  case case9 budget here name rest there n hhere hdot hdots hsize hlink hn ih =>
    rcases h.node (FileName.canonical name :: here) with he | ⟨x, y, -, hy⟩
    · simp only [he, hn]
    · simp only [hy]

theorem resolve (p : Path) : fs'.resolve p = fs.resolve p := by
  rw [FileSystem.resolve, FileSystem.resolve, h.start, h.follow]

theorem chase (depth : Nat) (met : List (Trail × Option Trail)) (here : Trail)
    (names : List Text) : fs'.chase depth met here names = fs.chase depth met here names := by
  fun_induction fs.chase depth met here names <;> rw [FileSystem.chase] <;>
    simp_all +zetaDelta [h.location, h.trail_node?_eq_link_iff.2, -List.lookup_eq_none_iff]
  case case9 depth met here name rest next hstay hup hlink ih =>
    split
    · case _ target hn => exact absurd (h.trail_node?_eq_link_iff.1 hn) (hlink target)
    · rfl

theorem realPath (p : Path) : fs'.realPath p = fs.realPath p := by
  have hfull : fs'.fullPath p = fs.fullPath p := by
    simp only [fullPath, h.resolve, h.chase, h.location]
  rw [FileSystem.realPath, FileSystem.realPath, hfull]

theorem denies (access : Access) (p : Path) : fs'.denies access p = fs.denies access p := by
  rw [Bool.eq_iff_iff, denies_iff, denies_iff, h.realPath, h.denied]

theorem isPresent (p : Path) : fs'.isPresent p = fs.isPresent p := by
  rw [FileSystem.isPresent, FileSystem.isPresent, h.resolve]

theorem isDirectory (p : Path) : fs'.isDirectory p = fs.isDirectory p := by
  simp only [FileSystem.isDirectory, askDirectory, h.denies, h.resolve, h.hasDirectory]

end Alike

end KeyAudit.FileSystem
