import Mathlib
import KeyAudit.Config.Validation
import KeyAudit.Proofs.Config.Extension

/-!
# Extensions that are chosen

Extensions are normalised where they are chosen, and the extension of a file where it is looked
for among them. Each is done in its own way: what is chosen is trimmed and lowered before the dot
in front of it is dropped, while a file's extension is taken behind its dot and then lowered. But
a dot makes no difference for the lower case of what follows it (`Text.lower_cons_dot`), so
both come to the same text (`normalize_between`, `normalize_dot_between`). Hence a file is let
through by the extension that it has, in whatever case and with whatever blanks and dot it has
been chosen, and by nothing else (`chosen_hasExtension`).
-/

namespace KeyAudit

namespace Path

variable {p : Path} {x : Text}

/-- An extension is what follows the last dot, and never empty. -/
theorem of_suffix_eq_cons (h : p.suffix = .char '.' :: x) : x ≠ [] ∧ .char '.' ∉ x := by
  unfold suffix at h
  split at h
  · case h_1 name hname =>
      rw [nameSuffix] at h
      split at h
      · case isTrue htail =>
          obtain rfl := (List.cons.inj h).2
          refine ⟨List.reverse_ne_nil_iff.2 htail.2, fun hdot => ?_⟩
          have hstop := List.mem_takeWhile_imp (List.mem_reverse.1 hdot)
          exact absurd hstop (by decide)
      · cases h
  · cases h

end Path

namespace Extension

variable {texts : List Text} {before after x s : Text} {p : Path}

/-! ## What blanks and a dot do to an extension -/

/-- Without a dot in front, the lower case is what is left between blanks. -/
theorem normalize_between (hs : Text.IsTight s) (hne : s ≠ []) (hdot : .char '.' ∉ Text.lower s)
    (hbefore : ∀ c ∈ before, Text.isBlank c = true) (hafter : ∀ c ∈ after, Text.isBlank c = true) :
    normalize (before ++ s ++ after) = Text.lower s := by
  rw [normalize_eq, Text.trim_between hs hne hbefore hafter, undotted_eq_self_iff]
  exact fun hhead => hdot (List.mem_of_mem_head? hhead)

/-- A dot in front goes, and leaves the lower case of what follows it. -/
theorem normalize_dot_between (hs : Text.IsTight s)
    (hbefore : ∀ c ∈ before, Text.isBlank c = true) (hafter : ∀ c ∈ after, Text.isBlank c = true) :
    normalize (before ++ .char '.' :: s ++ after) = Text.lower s := by
  have htight : Text.IsTight (.char '.' :: s) := by
    intro c hc
    have hdot : CodePoint.char '.' ≠ c := by rintro rfl; exact absurd hc (by decide)
    refine ⟨fun h => hdot (Option.some.inj h), fun h => ?_⟩
    cases s with
    | nil => exact hdot (Option.some.inj h)
    | cons d s => exact (hs c hc).2 (by rwa [List.getLast?_cons_of_ne_nil (List.cons_ne_nil _ _)] at h)
  rw [normalize_eq, Text.trim_between htight (List.cons_ne_nil _ _) hbefore hafter,
    Text.lower_cons_dot]
  rfl

/-! ## Files that are let through -/

/-- A file with an extension is let through if no extension is kept, or its own in lower case. -/
theorem hasExtension_iff (h : p.suffix = .char '.' :: x) :
    p.hasExtension (ofTexts texts) = true ↔
      ofTexts texts = [] ∨ ∃ part ∈ parts texts, normalize part = Text.lower x := by
  have hne : Text.lower x ≠ [] := Text.lower_ne_nil (Path.of_suffix_eq_cons h).1
  rw [Path.hasExtension, h, List.drop_one, List.tail_cons, Bool.or_eq_true, List.isEmpty_iff,
    List.contains_iff_mem, mem_ofTexts, and_iff_right hne]

/-- A file without an extension is let through if no extension is kept. -/
theorem hasExtension_of_suffix_eq_nil (h : p.suffix = []) :
    p.hasExtension (ofTexts texts) = true ↔ ofTexts texts = [] := by
  have hmem : ([] : Text) ∉ ofTexts texts := fun hmem => (mem_ofTexts.1 hmem).1 rfl
  rw [Path.hasExtension, h, List.drop_nil, Bool.or_eq_true, List.isEmpty_iff, List.contains_iff_mem]
  exact or_iff_left hmem

/-- Which files are let through by the extensions that are chosen in some texts: a file whose
    extension is one of the parts, whatever the case of both, and with or without a dot in front
    and blanks around it; and if any extension is kept, only a file whose extension in lower case
    is the normal form of a part. A file without an extension is let through if none is kept. -/
theorem chosen_hasExtension (texts : List Text) (p : Path) :
    ∃ extensions, Setting.extensions (.arr (texts.map Json.str)) = .ok extensions ∧
      (∀ x, p.suffix = .char '.' :: x → Text.trim x = x →
        ∀ x' before after, Text.lower x' = Text.lower x →
          (∀ c ∈ before, Text.isBlank c = true) → (∀ c ∈ after, Text.isBlank c = true) →
          (before ++ x' ++ after ∈ parts texts ∨
            before ++ .char '.' :: x' ++ after ∈ parts texts) →
          p.hasExtension extensions = true) ∧
      (∀ x, p.suffix = .char '.' :: x → p.hasExtension extensions = true → extensions ≠ [] →
        ∃ part ∈ parts texts, undotted (Text.lower (Text.trim part)) = Text.lower x) ∧
      (p.suffix = [] → (p.hasExtension extensions = true ↔ extensions = [])) := by
  refine ⟨ofTexts texts, Setting.extensions_strings texts, ?_, ?_, hasExtension_of_suffix_eq_nil⟩
  · intro x hx htrim x' before after hcase hbefore hafter hpart
    obtain ⟨hne, hdot⟩ := Path.of_suffix_eq_cons hx
    -- What is chosen has neither blank ends nor dots, as its lower case has none.
    have htight : Text.IsTight x' := by
      rw [← Text.isTight_lower_iff, hcase, Text.isTight_lower_iff, ← htrim]
      exact Text.isTight_trim x
    have hdot' : .char '.' ∉ Text.lower x' := by
      rw [hcase]
      exact fun h => hdot ((Text.isLower_of_mem_lower h).2.resolve_right fun hsolid => hsolid.2 rfl)
    have hne' : x' ≠ [] := by
      rintro rfl
      exact Text.lower_ne_nil hne hcase.symm
    refine (hasExtension_iff hx).2 (.inr ?_)
    rcases hpart with hpart | hpart
    · exact ⟨_, hpart, (normalize_between htight hne' hdot' hbefore hafter).trans hcase⟩
    · exact ⟨_, hpart, (normalize_dot_between htight hbefore hafter).trans hcase⟩
  · intro x hx hhas hkept
    obtain ⟨part, hpart, heq⟩ := ((hasExtension_iff hx).1 hhas).resolve_left hkept
    exact ⟨part, hpart, heq⟩

/-- A capital sigma at the end is matched by one in another word, behind a dot that is chosen with
    it; a name that begins with its only dot has no extension to match. -/
theorem chosen_hasExtension_sigma :
    ∃ extensions, Setting.extensions (.arr [.str "md", .str "x, \t.οδΟΣ "]) = .ok extensions ∧
      (Path.ofText "d/a.b.ΟΔΟΣ").suffix = ".ΟΔΟΣ" ∧
      (Path.ofText "d/a.b.ΟΔΟΣ").hasExtension extensions = true ∧
      (∃ part ∈ parts ["md", "x, \t.οδΟΣ "],
        undotted (Text.lower (Text.trim part)) = Text.lower "ΟΔΟΣ") ∧
      (Path.ofText "d/.x").suffix = [] ∧ (Path.ofText "d/.x").hasExtension extensions = false := by
  obtain ⟨extensions, hextensions, hchosen, honly, -⟩ :=
    chosen_hasExtension ["md", "x, \t.οδΟΣ "] (Path.ofText "d/a.b.ΟΔΟΣ")
  obtain ⟨extensions', hextensions', -, -, hnone⟩ :=
    chosen_hasExtension ["md", "x, \t.οδΟΣ "] (Path.ofText "d/.x")
  obtain rfl := Except.ok.inj (hextensions.symm.trans hextensions')
  have hsuffix : (Path.ofText "d/a.b.ΟΔΟΣ").suffix = ".ΟΔΟΣ" := by decide +kernel
  have hsuffix' : (Path.ofText "d/.x").suffix = [] := by decide +kernel
  have hhas := hchosen "ΟΔΟΣ" hsuffix (by decide +kernel) "οδΟΣ" " \t" " " (by decide +kernel)
    (by decide +kernel) (by decide +kernel) (.inr (by decide +kernel))
  have hkept : extensions ≠ [] := by
    obtain rfl := Except.ok.inj (hextensions.symm.trans (Setting.extensions_strings _))
    decide +kernel
  refine ⟨extensions, hextensions, hsuffix, hhas, honly "ΟΔΟΣ" hsuffix hhas hkept, hsuffix', ?_⟩
  exact Bool.eq_false_of_not_eq_true fun h => hkept ((hnone hsuffix').1 h)

end Extension

end KeyAudit
