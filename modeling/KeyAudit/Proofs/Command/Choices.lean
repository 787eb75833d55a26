import Mathlib.Data.List.Nodup
import KeyAudit.Command
import KeyAudit.Proofs.Path

/-!
# What a user chooses

Arguments and settings may be given as values of many kinds. Here they are of the kinds
that they should have (`Choices`). Then only a negative threshold is refused, and the order
in which settings are given does not matter (`ofSettings_of_perm`).
-/

namespace KeyAudit

/-- Settings of the kinds that they should have. -/
structure Choices where
  source : Text
  project : Text
  threshold : Int
  extensions : List Text
  reportEmptyValues : Bool
  verbose : Bool
  recursive : Bool
  useIndex : Bool

namespace Choices

/-- The choices as arguments. -/
def arguments (a : Choices) : Command.Arguments where
  source := a.source
  project := a.project
  threshold := .int a.threshold
  extensions := .arr (a.extensions.map Json.str)
  reportEmptyValues := .bool a.reportEmptyValues
  verbose := .bool a.verbose
  recursive := .bool a.recursive
  useIndex := .bool a.useIndex

/-- The choices as settings by their names. -/
def settings (a : Choices) : List (Text × Json) := [
  ("source_file_path", .str a.source),
  ("project_path", .str a.project),
  ("min_occurrence_threshold", .int a.threshold),
  ("allowed_extensions", .arr (a.extensions.map Json.str)),
  ("report_empty_values", .bool a.reportEmptyValues),
  ("verbose", .bool a.verbose),
  ("recursive", .bool a.recursive),
  ("use_index", .bool a.useIndex)]

/-- The configuration that is chosen, if the threshold is not negative. -/
def config (a : Choices) : Config where
  source := Path.ofText a.source
  project := Path.ofText a.project
  threshold := a.threshold.toNat
  extensions := Extension.ofTexts a.extensions
  reportEmptyValues := a.reportEmptyValues
  verbose := a.verbose
  recursive := a.recursive
  useIndex := a.useIndex

/-- What is refused if the threshold is negative. -/
def refusal (a : Choices) : Refusal :=
  ⟨["min_occurrence_threshold"], .negative, .int a.threshold⟩

theorem map_fst_settings (a : Choices) : a.settings.map Prod.fst = Config.settingNames := rfl

theorem nodup_settings (a : Choices) : (a.settings.map Prod.fst).Nodup := by
  rw [map_fst_settings]
  decide

/-- Whatever the order of the settings is, they have their values. -/
theorem lookup_of_perm {a : Choices} {given : List (Text × Json)} (h : given.Perm a.settings)
    (name : Text) : given.lookup name = a.settings.lookup name :=
  (lookup_eq_of_perm h.symm a.nodup_settings name).symm

/-- All of the settings are known to an audit. -/
theorem unknownSettings_of_perm {a : Choices} {given : List (Text × Json)}
    (h : given.Perm a.settings) : Config.unknownSettings given = .valid () := by
  have hknown : given.filter (fun s => !Config.settingNames.contains s.1) = [] := by
    refine List.filter_eq_nil_iff.2 fun s hs => ?_
    have hname : s.1 ∈ Config.settingNames :=
      a.map_fst_settings ▸ List.mem_map_of_mem (h.mem_iff.1 hs)
    simpa using hname
  rw [Config.unknownSettings, hknown]
  rfl

/-- The names of the settings are texts. -/
theorem brokenName?_of_perm {a : Choices} {given : List (Text × Json)}
    (h : given.Perm a.settings) : Config.brokenName? given = none := by
  refine List.find?_eq_none.2 fun name hname => ?_
  have hknown : name ∈ Config.settingNames := by
    rw [← a.map_fst_settings]
    exact (h.map Prod.fst).mem_iff.1 hname
  exact (by decide : ∀ name ∈ Config.settingNames, ¬Text.holdsHalf name = true) name hknown

theorem validate_of_perm {a : Choices} {given : List (Text × Json)} (h : given.Perm a.settings)
    (extensions : List Text) :
    Config.validate given extensions =
      if a.threshold < 0 then .invalid a.refusal []
      else .valid { a.config with extensions } := by
  have hthreshold : Setting.threshold (.int a.threshold) =
      if a.threshold < 0 then .error .negative else .ok a.threshold.toNat := rfl
  simp only [Config.validate, Config.required, Config.optional, lookup_of_perm h,
    unknownSettings_of_perm h]
  -- Each name is looked up in the list of all settings.
  change Validation.ap (.ap (.ap (.ap (.ap (.ap (.ap (.ap (.valid _) (.valid _)) (.valid _))
    (.ofValue _ _ (Setting.threshold (.int a.threshold)))) (.valid _)) (.valid _)) (.valid _))
    (.valid _)) (.valid ()) = _
  rw [hthreshold]
  split
  · rfl
  · rfl

theorem extensions_of_perm {a : Choices} {given : List (Text × Json)}
    (h : given.Perm a.settings) :
    Setting.extensions ((given.lookup Config.extensionsName).getD .null) =
      .ok (Extension.ofTexts a.extensions) := by
  have hlookup : a.settings.lookup Config.extensionsName =
      some (.arr (a.extensions.map Json.str)) := rfl
  rw [lookup_of_perm h, hlookup, Option.getD_some, Setting.extensions_strings]

/-- In whatever order they are given, the settings make the configuration that is chosen,
    unless the threshold is negative. -/
theorem ofSettings_of_perm {a : Choices} {given : List (Text × Json)}
    (h : given.Perm a.settings) :
    Config.ofSettings given =
      if a.threshold < 0 then .error (.refused a.refusal []) else .ok a.config := by
  rw [Config.ofSettings, extensions_of_perm h, brokenName?_of_perm h]
  simp only [validate_of_perm h]
  by_cases hn : a.threshold < 0
  · rw [if_pos hn, if_pos hn]
  · rw [if_neg hn, if_neg hn]
    rfl

/-- Arguments stand for the settings with the paths in full. -/
theorem settings_arguments (a : Choices) (source project : Path) :
    a.arguments.settings source project =
      { a with source := source.toText, project := project.toText }.settings := by
  have hextensions : (if Command.isNothing a.arguments.extensions then .arr []
      else a.arguments.extensions) = Json.arr (a.extensions.map Json.str) := by
    rw [arguments]
    cases a.extensions with
    | nil => rfl
    | cons e es => rfl
  rw [Command.Arguments.settings, hextensions]
  rfl

/-- The command that the arguments make, if both paths can be replaced by those in full. -/
theorem ofArguments_arguments {env : Environment} {a : Choices} {source project : Path}
    (hsource : env.expandUser (Path.ofText a.source) = .ok source)
    (hproject : env.expandUser (Path.ofText a.project) = .ok project) :
    Command.ofArguments env a.arguments = .ok (
      if a.threshold < 0 then
        .misconfigured ("Invalid argument " ++ a.refusal.placeName ++ ": " ++
          a.refusal.issue.message) a.source a.project
      else .audit { a.config with source, project }) := by
  have hpath : ∀ {s : Text} {p : Path}, env.expandUser (Path.ofText s) = .ok p →
      Path.ofText p.toText = p := fun h =>
    Path.ofText_toText (Environment.isNormal_expandUser (Path.isNormal_ofText _) h)
  have hconfig : { a with source := source.toText, project := project.toText : Choices }.config =
      { a.config with source, project } := by
    rw [config, hpath hsource, hpath hproject]
    rfl
  have hsettings := ofSettings_of_perm (.refl
    ({ a with source := source.toText, project := project.toText } : Choices).settings)
  rw [hconfig, ← a.settings_arguments] at hsettings
  have hsource' : env.expandUser (Path.ofText a.arguments.source) = .ok source := hsource
  have hproject' : env.expandUser (Path.ofText a.arguments.project) = .ok project := hproject
  simp only [Command.ofArguments, hsource', hproject', Except.mapError, bind, Except.bind,
    hsettings]
  by_cases hn : a.threshold < 0
  · simp only [if_pos hn]
    rfl
  · simp only [if_neg hn]
    rfl

end Choices

end KeyAudit
