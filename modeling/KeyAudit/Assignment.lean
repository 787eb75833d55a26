import KeyAudit.Text.Basic

/-!
# Names with values

Values that belong to names are kept as pairs, in the order in which the names came.
-/

namespace KeyAudit

/-- Gives a name a value among pairs of names and values: a name that is there
    keeps its place and takes the new value, a new one comes last. -/
def assign {α : Type} (name : Text) (value : α) : List (Text × α) → List (Text × α)
  | [] => [(name, value)]
  | (n, v) :: rest => if n = name then (n, value) :: rest else (n, v) :: assign name value rest

/-- Giving a name its value again changes nothing. -/
theorem assign_map_of_mem {α : Type} (value : Text → α) {name : Text} {names : List Text}
    (h : name ∈ names) :
    assign name (value name) (names.map fun n => (n, value n)) =
      names.map fun n => (n, value n) := by
  induction names with
  | nil => exact absurd h List.not_mem_nil
  | cons n names ih =>
    rw [List.map_cons, assign]
    by_cases hn : n = name
    · rw [if_pos hn, hn]
    · rw [if_neg hn, ih ((List.mem_cons.1 h).resolve_left (Ne.symm hn))]

/-- A new name comes last. -/
theorem assign_of_not_mem {α : Type} {name : Text} (value : α) {pairs : List (Text × α)}
    (h : name ∉ pairs.map Prod.fst) : assign name value pairs = pairs ++ [(name, value)] := by
  induction pairs with
  | nil => rfl
  | cons pair pairs ih =>
    rw [List.map_cons] at h
    rw [assign, if_neg (Ne.symm (List.ne_of_not_mem_cons h)),
      ih (List.not_mem_of_not_mem_cons h)]
    rfl

theorem assign_map_of_not_mem {α : Type} (value : Text → α) {name : Text} {names : List Text}
    (h : name ∉ names) :
    assign name (value name) (names.map fun n => (n, value n)) =
      (names ++ [name]).map fun n => (n, value n) := by
  rw [assign_of_not_mem, List.map_append]
  · rfl
  · simpa using h

/-- The names stay as they are, but for a new one. -/
theorem map_fst_assign {α : Type} (name : Text) (value : α) (pairs : List (Text × α)) :
    (assign name value pairs).map Prod.fst =
      if name ∈ pairs.map Prod.fst then pairs.map Prod.fst else pairs.map Prod.fst ++ [name] := by
  induction pairs with
  | nil => rfl
  | cons pair pairs ih =>
    obtain ⟨n, v⟩ := pair
    rw [assign]
    by_cases hn : n = name
    · simp [hn]
    · rw [if_neg hn, List.map_cons, ih, List.map_cons]
      by_cases hmem : name ∈ pairs.map Prod.fst
      · rw [if_pos hmem, if_pos (List.mem_cons_of_mem n hmem)]
      · rw [if_neg hmem, if_neg (List.not_mem_cons_of_ne_of_not_mem (Ne.symm hn) hmem)]
        rfl

/-- Names that come once still do. -/
theorem nodup_assign {α : Type} {name : Text} {value : α} {pairs : List (Text × α)}
    (h : (pairs.map Prod.fst).Nodup) : ((assign name value pairs).map Prod.fst).Nodup := by
  rw [map_fst_assign]
  split
  · exact h
  · case isFalse hmem =>
      refine List.nodup_append.2 ⟨h, List.pairwise_singleton _ name, fun n hn m hm => ?_⟩
      rw [List.mem_singleton.1 hm]
      rintro rfl
      exact hmem hn

/-- Where every name comes once, a name has the value that it comes with. -/
theorem lookup_eq_some_iff_mem {α β : Type} [BEq α] [LawfulBEq α] {pairs : List (α × β)}
    {name : α} {value : β} (h : (pairs.map Prod.fst).Nodup) :
    pairs.lookup name = some value ↔ (name, value) ∈ pairs := by
  induction pairs with
  | nil => simp
  | cons pair pairs ih =>
    obtain ⟨n, v⟩ := pair
    rw [List.map_cons, List.nodup_cons] at h
    by_cases hn : name = n
    · subst hn
      have hv : (name, value) ∉ pairs := fun hm => h.1 (List.mem_map.2 ⟨_, hm, rfl⟩)
      simp [hv, eq_comm]
    · have hb : (name == n) = false := by simpa using hn
      rw [List.lookup_cons, hb, List.mem_cons]
      simp [ih h.2, hn]

/-- The order of names that come once does not matter for their values. -/
theorem lookup_eq_of_perm {α β : Type} [BEq α] [LawfulBEq α] {pairs pairs' : List (α × β)}
    (hp : pairs.Perm pairs') (h : (pairs.map Prod.fst).Nodup) (name : α) :
    pairs.lookup name = pairs'.lookup name := by
  have h' : (pairs'.map Prod.fst).Nodup := (hp.map Prod.fst).nodup_iff.1 h
  refine Option.ext fun value => ?_
  rw [lookup_eq_some_iff_mem h, lookup_eq_some_iff_mem h', hp.mem_iff]

end KeyAudit
