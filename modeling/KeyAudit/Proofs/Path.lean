import KeyAudit.Environment

/-!
# Paths and their texts

Reading a path leaves names out that mean nothing, so the names that are left are neither
empty nor `.`, and have no slash (`Path.IsNormal`). The text of such a path is read as the
same path again (`Path.ofText_toText`), and replacing a `~` keeps it so.
-/

namespace KeyAudit

namespace Path

/-- All names are such as are read from texts. -/
def IsNormal (p : Path) : Prop :=
  ∀ name ∈ p.names, name ≠ [] ∧ name ≠ "." ∧ CodePoint.char '/' ∉ name

theorem isNormal_ofText (s : Text) : (ofText s).IsNormal := by
  intro name h
  obtain ⟨hpiece, hname⟩ := List.mem_filter.1 h
  simp only [ne_eq, Bool.and_eq_true, decide_eq_true_eq] at hname
  exact ⟨hname.1, hname.2, Text.not_mem_of_mem_splitOn hpiece⟩

theorem IsNormal.join {p q : Path} (hp : p.IsNormal) (hq : q.IsNormal) : (p.join q).IsNormal := by
  unfold Path.join
  split
  · intro name h
    exact (List.mem_append.1 h).elim (hp name) (hq name)
  · exact hq

/-- The names of a path are the pieces of its text without its slashes in front. -/
theorem pieces_join {names : List Text} (h : ∀ name ∈ names, CodePoint.char '/' ∉ name)
    (hne : names ≠ []) : pieces (Text.join "/" names) = names := by
  rw [pieces, Text.splitOn_eq]
  exact List.splitOn_intercalate _ h hne

theorem pieces_slash (s : Text) : pieces (.char '/' :: s) = [] :: pieces s := by
  rw [pieces, pieces, Text.splitOn_eq, Text.splitOn_eq]
  exact List.splitOn_append_cons_self_of_not_mem List.not_mem_nil s

theorem anchorOf_of_head? {s : Text} (h : s.head? ≠ some (.char '/')) :
    anchorOf s = .workingDirectory ∧ anchorOf (.char '/' :: s) = .top ∧
      anchorOf (.char '/' :: .char '/' :: s) = .doubleTop := by
  cases s with
  | nil => exact ⟨rfl, rfl, rfl⟩
  | cons c s =>
    have hc : c ≠ .char '/' := fun hc => h (congrArg some hc)
    exact ⟨by simp [anchorOf, hc], by simp [anchorOf, hc], by simp [anchorOf, hc]⟩

/-- The names of a normal path are read as they are, whatever empty pieces are in front. -/
theorem IsNormal.filter_pieces {p : Path} (h : p.IsNormal) :
    (pieces (Text.join "/" p.names)).filter (fun name : Text => name ≠ "" && name ≠ ".") =
      p.names := by
  by_cases hne : p.names = []
  · rw [hne]
    rfl
  · rw [pieces_join (fun name hn => (h name hn).2.2) hne, List.filter_eq_self]
    intro name hn
    obtain ⟨hempty, hdot, -⟩ := h name hn
    simpa using ⟨hempty, hdot⟩

theorem IsNormal.head?_join {p : Path} (h : p.IsNormal) :
    (Text.join "/" p.names).head? ≠ some (.char '/') := by
  cases hn : p.names with
  | nil => exact fun hs => by cases hs
  | cons name rest =>
    obtain ⟨hempty, -, hslash⟩ := h name (hn ▸ List.mem_cons_self)
    obtain ⟨c, cs, rfl⟩ := List.exists_cons_of_ne_nil hempty
    have hc : (Text.join "/" ((c :: cs) :: rest)).head? = some c := by
      cases rest with
      | nil => simp [Text.join, List.intercalate]
      | cons second rest => simp [Text.join_cons_cons]
    rw [hc]
    exact fun hs => hslash (Option.some.inj hs ▸ List.mem_cons_self)

/-- The text of a normal path is read as that path. -/
theorem ofText_toText {p : Path} (h : p.IsNormal) : ofText p.toText = p := by
  have hnames := h.filter_pieces
  obtain ⟨hplain, htop, hdouble⟩ := anchorOf_of_head? h.head?_join
  obtain ⟨anchor, names⟩ := p
  cases anchor with
  | workingDirectory =>
    cases names with
    | nil => rfl
    | cons name rest => exact (mk.injEq ..).mpr ⟨hplain, hnames⟩
  | top =>
    have hpieces : pieces (.char '/' :: Text.join "/" names) = _ := pieces_slash _
    exact (mk.injEq ..).mpr ⟨htop, (congrArg _ hpieces).trans hnames⟩
  | doubleTop =>
    have hpieces : pieces (.char '/' :: .char '/' :: Text.join "/" names) = _ :=
      (pieces_slash _).trans (congrArg _ (pieces_slash _))
    exact (mk.injEq ..).mpr ⟨hdouble, (congrArg _ hpieces).trans hnames⟩

end Path

/-- A path begins with a `~`, which stands for a directory of a user. -/
def Path.HasTilde (p : Path) : Prop :=
  p.anchor = .workingDirectory ∧ ∃ account rest, p.names = (.char '~' :: account) :: rest

/-- Without a `~` in front there is nothing to replace. -/
theorem Environment.expandUser_of_not_hasTilde {env : Environment} {p : Path}
    (h : ¬p.HasTilde) : env.expandUser p = .ok p := by
  unfold expandUser
  split
  · case h_1 name rest hanchor hnames =>
      split
      · case h_1 account => exact absurd ⟨hanchor, account, rest, hnames⟩ h
      · rfl
  · rfl

/-- A path remains normal if its `~` is replaced. -/
theorem Environment.isNormal_expandUser {env : Environment} {p q : Path} (hp : p.IsNormal)
    (h : env.expandUser p = .ok q) : q.IsNormal := by
  unfold expandUser at h
  split at h
  · case h_1 name rest _ hnames =>
      split at h
      · -- The names after the first one are kept.
        have hrest : (Path.mk .workingDirectory rest).IsNormal := fun name hn =>
          hp name (hnames ▸ List.mem_cons_of_mem _ hn)
        split at h
        · cases h
        · cases h
          exact (Path.isNormal_ofText _).join hrest
        · cases h
      · cases h
        exact hp
  · cases h
    exact hp

end KeyAudit
