import Mathlib
import KeyAudit.Proofs.Command.Choices
import KeyAudit.Proofs.Config.Extension

/-!
# Configurations that are written out

The settings of a configuration are valid settings themselves, whatever settings it has been made
of. Read again they make the same configuration but for its extensions, which are reduced once
more (`ofSettings_settings`). So the configuration survives exactly if its extensions have no dot
and no blank in front. They have not always: of several dots in front of an extension one is
dropped, and a blank behind the dot is kept.
-/

namespace KeyAudit

namespace Validation

variable {α β : Type}

theorem ap_eq_valid {f : Validation (α → β)} {v : Validation α} {b : β}
    (h : f.ap v = valid b) : ∃ g a, f = valid g ∧ v = valid a ∧ g a = b := by
  cases f with
  | valid g =>
    cases v with
    | valid a => exact ⟨g, a, rfl, rfl, valid.inj h⟩
    | invalid r rs => cases h
  | invalid r rs =>
    cases v with
    | valid a => cases h
    | invalid s ss => cases h

end Validation

namespace Config

theorem isNormal_of_required {given : List (Text × Json)} {name : Text} {p : Path}
    (h : required given name Setting.path = .valid p) : p.IsNormal := by
  unfold required at h
  split at h
  · case h_1 j hj =>
      cases j with
      | str s =>
        obtain rfl := Validation.valid.inj h
        exact Path.isNormal_ofText s
      | _ => cases h
  · cases h

/-- What settings make has the extensions that are read, and paths that are. -/
theorem of_validate {given : List (Text × Json)} {extensions : List Text} {c : Config}
    (h : validate given extensions = .valid c) :
    c.extensions = extensions ∧ c.source.IsNormal ∧ c.project.IsNormal := by
  unfold validate at h
  obtain ⟨_, _, h₁, -, rfl⟩ := Validation.ap_eq_valid h
  obtain ⟨_, useIndex, h₂, -, rfl⟩ := Validation.ap_eq_valid h₁
  obtain ⟨_, recursive, h₃, -, rfl⟩ := Validation.ap_eq_valid h₂
  obtain ⟨_, verbose, h₄, -, rfl⟩ := Validation.ap_eq_valid h₃
  obtain ⟨_, empty, h₅, -, rfl⟩ := Validation.ap_eq_valid h₄
  obtain ⟨_, threshold, h₆, -, rfl⟩ := Validation.ap_eq_valid h₅
  obtain ⟨_, project, h₇, hproject, rfl⟩ := Validation.ap_eq_valid h₆
  obtain ⟨_, source, h₈, hsource, rfl⟩ := Validation.ap_eq_valid h₇
  obtain rfl := Validation.valid.inj h₈
  exact ⟨rfl, isNormal_of_required hsource, isNormal_of_required hproject⟩

/-- What settings make has extensions that are kept, and paths that are read. -/
theorem of_ofSettings {given : List (Text × Json)} {c : Config} (h : ofSettings given = .ok c) :
    (∃ texts, c.extensions = Extension.ofTexts texts) ∧ c.source.IsNormal ∧
      c.project.IsNormal := by
  unfold ofSettings at h
  split at h
  · cases h
  · case h_2 extensions hextensions =>
      split at h
      · cases h
      · split at h
        · case h_1 config hvalid =>
            obtain rfl := Except.ok.inj h
            obtain ⟨hext, hsource, hproject⟩ := of_validate hvalid
            refine ⟨?_, hsource, hproject⟩
            unfold Setting.extensions at hextensions
            split at hextensions
            · case h_1 texts htexts =>
                exact ⟨texts, hext.trans (Except.ok.inj hextensions).symm⟩
            · cases hextensions
        · cases h

/-- The settings of a configuration as choices. -/
def choices (c : Config) : Choices where
  source := c.source.toText
  project := c.project.toText
  threshold := c.threshold
  extensions := c.extensions
  reportEmptyValues := c.reportEmptyValues
  verbose := c.verbose
  recursive := c.recursive
  useIndex := c.useIndex

theorem settings_choices (c : Config) : c.choices.settings = c.settings := rfl

/-- The settings of a configuration are read as it is, but for its extensions. -/
theorem ofSettings_made {given : List (Text × Json)} {c : Config} (h : ofSettings given = .ok c) :
    ofSettings c.settings = .ok { c with extensions := Extension.ofTexts c.extensions } := by
  obtain ⟨-, hsource, hproject⟩ := of_ofSettings h
  have hconfig : c.choices.config = { c with extensions := Extension.ofTexts c.extensions } := by
    rw [Choices.config, choices, Path.ofText_toText hsource, Path.ofText_toText hproject]
    rfl
  have hthreshold : ¬c.choices.threshold < 0 := Int.not_lt.2 (Int.natCast_nonneg c.threshold)
  rw [← settings_choices, Choices.ofSettings_of_perm (.refl _), hconfig, if_neg hthreshold]

/-- Written out and read back, a configuration keeps everything but the starts of extensions that
    are not in normal form, and it is the same exactly if there are none. -/
theorem ofSettings_settings (given : List (Text × Json)) (c : Config)
    (h : ofSettings given = .ok c) :
    ofSettings c.settings = .ok { c with extensions := Extension.ofTexts c.extensions } ∧
      (∀ e ∈ c.extensions, Extension.IsKept e) ∧
      (ofSettings c.settings = .ok c ↔ ∀ e ∈ c.extensions, Extension.IsNormal e) := by
  obtain ⟨⟨texts, htexts⟩, -⟩ := of_ofSettings h
  have hkept : ∀ e ∈ c.extensions, Extension.IsKept e := fun e he =>
    Extension.isKept_of_mem_ofTexts (htexts ▸ he)
  have hsorted : c.extensions.Pairwise (· < ·) := htexts ▸ Extension.pairwise_setOf _
  refine ⟨ofSettings_made h, hkept, ?_⟩
  rw [ofSettings_made h, ← Extension.ofTexts_eq_self_iff hsorted hkept]
  constructor
  · intro heq
    exact congrArg Config.extensions (Except.ok.inj heq)
  · intro heq
    rw [heq]

/-- Settings with these extensions, and nothing that may be left out. -/
def settingsOf (extensions : List Text) : List (Text × Json) := [
  ("source_file_path", .str "s//t/"),
  ("project_path", .str "p"),
  ("min_occurrence_threshold", .str " 1_0 "),
  ("allowed_extensions", .arr (extensions.map Json.str))]

/-- The configuration that they make of some extensions in normal form. -/
def configOf (extensions : List Text) : Config :=
  ⟨Path.ofText "s/t", Path.ofText "p", 10, extensions, false, false, true, false⟩

theorem ofSettings_settingsOf (extensions : List Text) :
    ofSettings (settingsOf extensions) = .ok (configOf (Extension.ofTexts extensions)) := by
  have hread : Setting.extensions (((settingsOf extensions).lookup extensionsName).getD .null) =
      .ok (Extension.ofTexts extensions) := by
    have hlookup : (settingsOf extensions).lookup extensionsName =
        some (.arr (extensions.map Json.str)) := rfl
    rw [hlookup, Option.getD_some, Setting.extensions_strings]
  have hnames : brokenName? (settingsOf extensions) = none := rfl
  have hvalid : ∀ kept, validate (settingsOf extensions) kept = .valid (configOf kept) := by
    intro kept
    cbv
  simp only [ofSettings, hread, hnames, hvalid]

/-- Extensions in capital letters, among them a sigma at the end of a word, survive. -/
theorem ofSettings_settings_capitals :
    ofSettings (settingsOf ["TXT, .ΟΔΟΣ", "İ"]) = .ok (configOf ["i\u0307", "txt", "οδος"]) ∧
      ofSettings (configOf ["i\u0307", "txt", "οδος"]).settings =
        .ok (configOf ["i\u0307", "txt", "οδος"]) := by
  have hkept : Extension.ofTexts ["TXT, .ΟΔΟΣ", "İ"] =
      (["i\u0307", "txt", "οδος"] : List Text) := by decide +kernel
  have h : ofSettings (settingsOf ["TXT, .ΟΔΟΣ", "İ"]) =
      .ok (configOf ["i\u0307", "txt", "οδος"]) := by
    rw [ofSettings_settingsOf, hkept]
  obtain ⟨-, -, hsame⟩ := ofSettings_settings _ _ h
  have hnormal : ∀ e ∈ (configOf ["i\u0307", "txt", "οδος"]).extensions, Extension.IsNormal e := by
    intro e he c hc
    simp only [configOf, List.mem_cons, List.not_mem_nil, or_false] at he
    rcases he with rfl | rfl | rfl <;> cases hc <;> exact ⟨by decide, by decide⟩
  exact ⟨h, hsame.2 hnormal⟩

/-- The second of two dots in front of an extension, and a blank behind the dot, are kept at first
    and lost when the configuration is read back. -/
theorem not_survives_dotted :
    ofSettings (settingsOf ["..py", ". c"]) = .ok (configOf [" c", ".py"]) ∧
      ofSettings (configOf [" c", ".py"]).settings ≠ .ok (configOf [" c", ".py"]) := by
  have hkept : Extension.ofTexts ["..py", ". c"] = ([" c", ".py"] : List Text) := by
    decide +kernel
  have h : ofSettings (settingsOf ["..py", ". c"]) = .ok (configOf [" c", ".py"]) := by
    rw [ofSettings_settingsOf, hkept]
  refine ⟨h, fun hsame => ?_⟩
  rw [ofSettings_made h] at hsame
  have hextensions : Extension.ofTexts [" c", ".py"] = ([" c", ".py"] : List Text) :=
    congrArg Config.extensions (Except.ok.inj hsame)
  exact absurd hextensions (by decide +kernel)

end Config

end KeyAudit
