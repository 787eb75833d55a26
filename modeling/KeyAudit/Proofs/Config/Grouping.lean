import Mathlib
import KeyAudit.Command
import KeyAudit.Proofs.Config.Extension

/-!
# Grouping of extensions

Extensions may be given one by one or several in a text, separated by commas, in any order and
repeatedly. Nothing but the parts between the commas matters (`ofTexts_eq_of_parts`): what is
kept of them is a set, and a set is one increasing list. The parts of texts that are joined by
commas are the parts of these texts (`parts_join`). An audit that is described by arguments
looks at its extensions nowhere else, so arguments with the same parts make the same command
(`regrouped_extensions`).
-/

namespace KeyAudit

namespace Extension

variable {xs ys : List Text}

/-- Increasing lists with the same members are equal. -/
theorem eq_of_mem_iff (hxs : xs.Pairwise (· < ·)) (hys : ys.Pairwise (· < ·))
    (h : ∀ e, e ∈ xs ↔ e ∈ ys) : xs = ys := by
  have hne : ∀ {s t : Text}, s < t → s ≠ t := fun hlt heq => List.lt_irrefl _ (heq ▸ hlt)
  have hnodup : ∀ {es : List Text}, es.Pairwise (· < ·) → es.Nodup := fun hes => hes.imp hne
  refine List.Perm.eq_of_pairwise (fun s t _ _ hst hts => ?_) hxs hys
    ((List.perm_ext_iff_of_nodup (hnodup hxs) (hnodup hys)).2 h)
  exact absurd hts (List.lt_asymm hst)

/-- Of the texts that extensions are given in, only the parts matter, and of these only which
    ones there are. -/
theorem ofTexts_eq_of_parts (h : ∀ part, part ≠ [] → (part ∈ parts xs ↔ part ∈ parts ys)) :
    ofTexts xs = ofTexts ys := by
  refine eq_of_mem_iff (pairwise_setOf _) (pairwise_setOf _) fun e => ?_
  rw [mem_ofTexts, mem_ofTexts]
  refine and_congr_right fun hne => exists_congr fun part => ?_
  -- An empty part gives no extension.
  by_cases hpart : part = []
  · have hempty : normalize part ≠ e := by
      rw [hpart]
      exact fun he => hne he.symm
    exact iff_of_false (fun h => hempty h.2) (fun h => hempty h.2)
  · rw [h part hpart]

theorem parts_append (xs ys : List Text) : parts (xs ++ ys) = parts xs ++ parts ys :=
  List.flatMap_append

/-- Joining texts with commas leaves their parts. -/
theorem parts_join (h : xs ≠ []) : parts [Text.join "," xs] = parts xs := by
  rw [parts, List.flatMap_singleton]
  induction xs with
  | nil => exact absurd rfl h
  | cons s xs ih =>
    cases xs with
    | nil => simp [parts, Text.join, List.intercalate]
    | cons t xs =>
      have hjoin : Text.join "," (s :: t :: xs) = s ++ .char ',' :: Text.join "," (t :: xs) :=
        Text.join_cons_cons "," s t xs
      rw [hjoin, Text.splitOn_eq, List.splitOn_append_cons_self, ← Text.splitOn_eq,
        ← Text.splitOn_eq, ih (List.cons_ne_nil _ _)]
      rfl

theorem ofTexts_join (xs : List Text) : ofTexts [Text.join "," xs] = ofTexts xs := by
  cases xs with
  | nil => rfl
  | cons s xs => exact ofTexts_eq_of_parts fun part _ => by rw [parts_join (List.cons_ne_nil s xs)]

end Extension

namespace Command

variable {a : Arguments} {source project : Path} {env : Environment} {xs ys : List Text} {j k : Json}

/-- Arguments whose extensions are read in the same way stand for the same configuration. -/
theorem ofSettings_settings_congr
    (h : Setting.extensions (if isNothing j then .arr [] else j) =
      Setting.extensions (if isNothing k then .arr [] else k)) :
    Config.ofSettings ({ a with extensions := j }.settings source project) =
      Config.ofSettings ({ a with extensions := k }.settings source project) := by
  have hlookup : ∀ j, ({ a with extensions := j }.settings source project).lookup
      Config.extensionsName = some (if isNothing j then .arr [] else j) := fun _ => rfl
  have hnames : ∀ j, Config.brokenName? ({ a with extensions := j }.settings source project) =
      none := fun _ => rfl
  have hvalid : ∀ extensions,
      Config.validate ({ a with extensions := j }.settings source project) extensions =
        Config.validate ({ a with extensions := k }.settings source project) extensions :=
    fun _ => rfl
  simp only [Config.ofSettings, hlookup, Option.getD_some, h, hnames, hvalid]

/-- Without any text, no extensions are given. -/
theorem extensions_given (xs : List Text) :
    Setting.extensions (if isNothing (.arr (xs.map Json.str)) then .arr []
      else .arr (xs.map Json.str)) = .ok (Extension.ofTexts xs) := by
  rw [← Setting.extensions_strings]
  cases xs with
  | nil => rfl
  | cons s xs => rfl

/-- Arguments make the same command, whatever texts their extensions are read from. -/
theorem ofArguments_eq_of_ofTexts (h : Extension.ofTexts xs = Extension.ofTexts ys) :
    ofArguments env { a with extensions := .arr (xs.map Json.str) } =
      ofArguments env { a with extensions := .arr (ys.map Json.str) } := by
  have hsettings : ∀ source project, Config.ofSettings
      ({ a with extensions := .arr (xs.map Json.str) }.settings source project) =
        Config.ofSettings ({ a with extensions := .arr (ys.map Json.str) }.settings source project) :=
    fun source project => ofSettings_settings_congr (by rw [extensions_given, extensions_given, h])
  simp only [ofArguments, hsettings]

end Command

namespace Extension

/-- How extensions are grouped and ordered does not matter. Texts are read as the set of the
    normal forms of their parts, which are neither empty nor have a comma. Two lists of texts give
    the union of their sets; texts that are joined by commas, in a list or alone, give the set
    of these texts, and so do the same texts in another order or repeated. Two calls that describe
    an audit by arguments with the same parts, and the same otherwise, make the same command. -/
theorem regrouped_extensions :
    (∀ xs, Setting.extensions (.arr (xs.map Json.str)) = .ok (ofTexts xs)) ∧
    (∀ xs ys e, e ∈ ofTexts (xs ++ ys) ↔ e ∈ ofTexts xs ∨ e ∈ ofTexts ys) ∧
    (∀ xs, ofTexts [Text.join "," xs] = ofTexts xs ∧
      Setting.extensions (.str (Text.join "," xs)) = .ok (ofTexts xs)) ∧
    (∀ xs ys, (∀ s, s ∈ xs ↔ s ∈ ys) → ofTexts xs = ofTexts ys) ∧
    (∀ xs, ∀ e ∈ ofTexts xs, e ≠ [] ∧ .char ',' ∉ e) ∧
    (∀ (env : Environment) (a : Command.Arguments) (xs ys : List Text),
      (∀ part, part ≠ [] → (part ∈ parts xs ↔ part ∈ parts ys)) →
      Command.ofArguments env { a with extensions := .arr (xs.map Json.str) } =
        Command.ofArguments env { a with extensions := .arr (ys.map Json.str) }) := by
  refine ⟨Setting.extensions_strings, fun xs ys e => ?_, fun xs => ⟨ofTexts_join xs, ?_⟩,
    fun xs ys h => ofTexts_eq_of_parts fun part _ => ?_, fun xs e he => ?_,
    fun env a xs ys h => Command.ofArguments_eq_of_ofTexts (ofTexts_eq_of_parts h)⟩
  · rw [mem_ofTexts, mem_ofTexts, mem_ofTexts, parts_append, ← and_or_left]
    simp only [List.mem_append, or_and_right, exists_or]
  · exact congrArg Except.ok (ofTexts_join xs)
  · simp only [parts, List.mem_flatMap, h]
  · exact ⟨(isKept_of_mem_ofTexts he).nonempty, (isKept_of_mem_ofTexts he).uncut⟩

/-- An audit of the working directory with no extensions chosen. -/
def plainArguments : Command.Arguments where
  source := "s"
  project := ""
  threshold := .int 0
  extensions := .null
  reportEmptyValues := .bool false
  verbose := .bool false
  recursive := .bool true
  useIndex := .bool false

/-- Two groupings of the same three parts: with blanks, in capital letters and with a dot, once
    repeated and once behind commas that separate nothing. -/
theorem regrouped_extensions_listed :
    (∀ part, part ≠ [] → (part ∈ parts ["md, .TXT", "x"] ↔ part ∈ parts ["x,,", " .TXT,x", "md"])) ∧
      Command.ofArguments ⟨[], [], []⟩
          { plainArguments with extensions := .arr [.str "md, .TXT", .str "x"] } =
        Command.ofArguments ⟨[], [], []⟩
          { plainArguments with extensions := .arr [.str "x,,", .str " .TXT,x", .str "md"] } ∧
      ofTexts ["md, .TXT", "x"] = (["md", "txt", "x"] : List Text) ∧
      ofTexts ["x", "md, .TXT", "x"] = ofTexts ["md, .TXT", "x"] := by
  obtain ⟨-, -, -, hsame, -, hcommand⟩ := regrouped_extensions
  have hparts : parts ["md, .TXT", "x"] = (["md", " .TXT", "x"] : List Text) := by decide +kernel
  have hregrouped : parts ["x,,", " .TXT,x", "md"] =
      (["x", "", "", " .TXT", "x", "md"] : List Text) := by decide +kernel
  have h : ∀ part, part ≠ [] →
      (part ∈ parts ["md, .TXT", "x"] ↔ part ∈ parts ["x,,", " .TXT,x", "md"]) := by
    intro part hpart
    have hempty : part ≠ "" := hpart
    rw [hparts, hregrouped]
    simp only [List.mem_cons, List.not_mem_nil, or_false, hempty, false_or]
    tauto
  refine ⟨h, hcommand ⟨[], [], []⟩ plainArguments _ _ h, by decide +kernel, hsame _ _ fun s => ?_⟩
  simp only [List.mem_cons, List.not_mem_nil, or_false]
  tauto

end Extension

end KeyAudit
