import KeyAudit.Text.Basic

/-!
# Searching a text

`occurs` decides whether one text is a contiguous piece of another
(`occurs_iff`). The empty text is a piece of every text.
-/

namespace KeyAudit.Text

/-- Whether `key` stands somewhere in a text. -/
def occurs (key : Text) : Text → Bool
  | [] => key.isEmpty
  | c :: rest => key.isPrefixOf (c :: rest) || occurs key rest

/-- A key occurs in a text if and only if it is a contiguous piece of it. -/
theorem occurs_iff {key s : Text} : occurs key s = true ↔ key <:+: s := by
  induction s with
  | nil => simp [occurs]
  | cons c rest ih =>
    rw [occurs, Bool.or_eq_true, List.isPrefixOf_iff_prefix, ih, List.infix_cons_iff]

end KeyAudit.Text
