import Mathlib
import KeyAudit.Text.Blank

/-!
# What trimming leaves

A text that begins with no blank keeps its beginning when it is trimmed, and one that ends with
no blank is trimmed at its start only. What is left has no blank at either end (`isTight_trim`),
and a text without blank ends is what is left of it whatever blanks are put around it
(`trim_between`).
-/

namespace KeyAudit.Text

variable {blank : CodePoint → Bool}

theorem head?_trimBy {s : Text} {c : CodePoint} (h : s.head? = some c) (hc : blank c = false) :
    (trimBy blank s).head? = some c := by
  obtain ⟨t, rfl⟩ := List.head?_eq_some_iff.1 h
  have hstart : trimStartBy blank (c :: t) = [c] ++ t :=
    List.dropWhile_cons_of_neg (by simp [hc])
  rw [trimBy, hstart, trimEndBy, List.reverse_append, List.dropWhile_append]
  split
  · simp [hc]
  · simp

theorem trimStartBy_concat (s : Text) {c : CodePoint} (hc : blank c = false) :
    trimStartBy blank (s ++ [c]) = trimStartBy blank s ++ [c] := by
  rw [trimStartBy, trimStartBy, List.dropWhile_append]
  split
  · case isTrue h =>
      rw [List.isEmpty_iff.1 h, List.nil_append, List.dropWhile_cons_of_neg (by simp [hc])]
  · rfl

/-- What ends with no blank is trimmed at its start only. -/
theorem trimBy_concat (s : Text) {c : CodePoint} (hc : blank c = false) :
    trimBy blank (s ++ [c]) = trimStartBy blank s ++ [c] := by
  rw [trimBy, trimStartBy_concat s hc, trimEndBy, List.reverse_append, List.reverse_singleton,
    List.singleton_append, List.dropWhile_cons_of_neg (by simp [hc]), List.reverse_cons,
    List.reverse_reverse]

/-- Trimming may begin at the start. -/
theorem trimBy_trimStartBy (s : Text) : trimBy blank (trimStartBy blank s) = trimBy blank s := by
  rw [trimBy, trimBy, trimStartBy, trimStartBy, List.dropWhile_idempotent]

theorem trimStartBy_suffix (s : Text) : trimStartBy blank s <:+ s := List.dropWhile_suffix _

theorem isBlank_of_head?_trimStartBy {s : Text} {c : CodePoint}
    (h : (trimStartBy blank s).head? = some c) : blank c = false := by
  have hnot := List.head?_dropWhile_not blank s
  rw [trimStartBy] at h
  rwa [h] at hnot

theorem isBlank_of_getLast?_trimBy {s : Text} {c : CodePoint}
    (h : (trimBy blank s).getLast? = some c) : blank c = false := by
  rw [trimBy, trimEndBy, List.getLast?_reverse] at h
  exact isBlank_of_head?_trimStartBy h

theorem isBlank_of_head?_trimBy {s : Text} {c : CodePoint} (h : (trimBy blank s).head? = some c) :
    blank c = false := by
  have hprefix : trimBy blank s <+: trimStartBy blank s := by
    rw [← List.reverse_suffix, trimBy, trimEndBy, List.reverse_reverse]
    exact List.dropWhile_suffix _
  obtain ⟨rest, hrest⟩ := hprefix
  obtain ⟨t, ht⟩ := List.head?_eq_some_iff.1 h
  refine isBlank_of_head?_trimStartBy (s := s) ?_
  rw [← hrest, ht]
  rfl

theorem trimBy_of_getLast? {s : Text} (h : ∀ c, s.getLast? = some c → blank c = false) :
    trimBy blank s = trimStartBy blank s := by
  rcases List.eq_nil_or_concat' s with rfl | ⟨t, c, rfl⟩
  · rfl
  · have hc : blank c = false := h c List.getLast?_concat
    rw [trimBy_concat t hc, trimStartBy_concat t hc]

/-- A text has no blank ends. -/
def IsTight (s : Text) : Prop :=
  ∀ c, isBlank c = true → s.head? ≠ some c ∧ s.getLast? ≠ some c

theorem isTight_trim (s : Text) : IsTight (trim s) := fun _ hc =>
  ⟨fun h => Bool.false_ne_true ((isBlank_of_head?_trimBy h).symm.trans hc),
    fun h => Bool.false_ne_true ((isBlank_of_getLast?_trimBy h).symm.trans hc)⟩

/-- Blanks around a text are trimmed, up to its ends. -/
theorem trim_between {before s after : Text} (hs : IsTight s) (hne : s ≠ [])
    (hbefore : ∀ c ∈ before, isBlank c = true) (hafter : ∀ c ∈ after, isBlank c = true) :
    trim (before ++ s ++ after) = s := by
  have hhead := List.head?_eq_some_head hne
  have hlast := List.getLast?_eq_some_getLast hne
  exact trimBy_between hbefore hafter hhead hlast
    (Bool.eq_false_of_not_eq_true fun h => (hs _ h).1 hhead)
    (Bool.eq_false_of_not_eq_true fun h => (hs _ h).2 hlast)

end KeyAudit.Text
