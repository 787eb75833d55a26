import Mathlib
import KeyAudit.Proofs.Command.Choices
import KeyAudit.Proofs.Json.Reading
import KeyAudit.Proofs.Text.Utf8

/-!
# Arguments and configuration files agree

It does not matter whether a user gives the choices as arguments or in a file, nor how the
file is written (`ofFile_agrees_ofArguments`): both make the same command. This takes paths
without a `~`, which is replaced in arguments only, and a threshold that is not refused and
short enough to be read.
-/

namespace KeyAudit

open Json

/-- A file holds the choices: as a text in UTF-8 of an object with just these settings, in
    whatever order and spelling. -/
def Choices.IsHeldBy (a : Choices) (fs : FileSystem) (path : Path) : Prop :=
  ∃ members chars, List.Perm members a.settings ∧
    IsTextOf (.obj members) (Text.ofChars chars) ∧
    fs.content path = .ok (String.ofList chars).toUTF8

/-- The settings are not nested deeper than a list in an object. -/
theorem Choices.within_of_perm {a : Choices} {members : List (Text × Json)}
    (h : members.Perm a.settings) (ht : a.threshold.natAbs < 10 ^ Number.digitLimit)
    (depth : Nat) : (Json.obj members).Within (depth + 2) := by
  refine .obj fun m hm => ?_
  have hm' := h.mem_iff.1 hm
  simp only [settings, List.mem_cons, List.not_mem_nil, or_false] at hm'
  rcases hm' with rfl | rfl | rfl | rfl | rfl | rfl | rfl | rfl
  · exact .str _
  · exact .str _
  · exact .int ht
  · refine .arr fun j hj => ?_
    obtain ⟨s, -, rfl⟩ := List.mem_map.1 hj
    exact .str s
  all_goals exact .bool _

/-- A file that holds choices is loaded as the configuration that is chosen. -/
theorem Choices.IsHeldBy.load {a : Choices} {fs : FileSystem} {path : Path}
    (h : a.IsHeldBy fs path) (hsign : 0 ≤ a.threshold)
    (ht : a.threshold.natAbs < 10 ^ Number.digitLimit) :
    Config.load fs path = .ok a.config := by
  obtain ⟨members, chars, hperm, htext, hcontent⟩ := h
  have hread : Json.read (Config.uniformLineEnds (Text.ofChars chars)) = .ok (.obj members) :=
    Json.read_of_isTextOf htext.uniformLineEnds (Choices.within_of_perm hperm ht 987)
  have hsettings : Config.ofSettings members = .ok a.config := by
    rw [Choices.ofSettings_of_perm hperm, if_neg (Int.not_lt.2 hsign)]
  have hfs : fs.text path = .ok (Text.ofChars chars) := by
    rw [FileSystem.text, hcontent]
    simp only [Text.Utf8.decode_toUTF8, String.toList_ofList]
  rw [Config.load_of_text hfs]
  exact Config.ofText_of_settings hread hsettings

namespace Command

/-- A file that holds choices makes the command that they make as arguments. It announces
    the configuration that is chosen, and its report is that of this configuration, wherever
    it is carried out. -/
theorem ofFile_agrees_ofArguments (env : Environment) (fs : FileSystem) (path : Text)
    (a : Choices) (hpath : ¬(Path.ofText path).HasTilde)
    (hsource : ¬(Path.ofText a.source).HasTilde) (hproject : ¬(Path.ofText a.project).HasTilde)
    (hsign : 0 ≤ a.threshold) (ht : a.threshold.natAbs < 10 ^ Number.digitLimit)
    (hfile : a.IsHeldBy fs (Path.ofText path)) :
    ∃ command, ofFile env fs path = .ok command ∧ ofArguments env a.arguments = .ok command ∧
      command.announcement = Text.join "\n" a.config.banner ∧
      ∀ {σ : Type} [Scene σ] (s : σ), command.perform s = a.config.report s := by
  refine ⟨.audit a.config, ?_, ?_, rfl, fun _ => rfl⟩
  · rw [ofFile, Environment.expandUser_of_not_hasTilde hpath]
    simp only [hfile.load hsign ht]
  · rw [Choices.ofArguments_arguments (Environment.expandUser_of_not_hasTilde hsource)
      (Environment.expandUser_of_not_hasTilde hproject), if_neg (Int.not_lt.2 hsign)]
    rfl

/-- Choices for an audit. -/
def choices : Choices := ⟨"s", "p", 2, ["py"], true, false, true, false⟩

/-- Their settings as a text, in another order, with blank space and an escape. -/
def choicesText : List Char :=
  ["\x7b\r\n", "\"use_index\":false,", "\"recursive\":true,", "\"verbose\":false,",
    "\"report_empty_values\":true,", "\"allowed_extensions\":[\t\"py\" ],",
    "\"min_occurrence_threshold\":2,", "\"project_path\":\"p\",",
    "\"source_file_path\":\"\\u0073\"", "\x7d\n"].flatMap String.toList

/-- The text is one of the settings. -/
theorem isTextOf_choicesText :
    IsTextOf (.obj choices.settings.reverse) (Text.ofChars choicesText) := by
  have hnone : IsGap [] := nofun
  have hbreak : IsGap ['\r', '\n'] := by decide
  have htab : IsGap ['\t'] := by decide
  have hspace : IsGap [.char ' '] := by decide
  have hname : ∀ s : Text, (∀ c ∈ s, isPlain c = true) →
      WrittenName s (.char '"' :: (s ++ [.char '"', .char ':'])) := fun s h =>
    .mk (writtenChars_of_isPlain h) hnone hnone
  have hstr : ∀ s : Text, (∀ c ∈ s, isPlain c = true) →
      Written (.value (.str s)) (.char '"' :: (s ++ [.char '"'])) := fun s h =>
    .str (writtenChars_of_isPlain h)
  have hs : Written (.value (.str "s")) (.char '"' :: (unitEscape '0' '0' '7' '3' ++ [.char '"'])) :=
    .str (.unit (by decide : _ = some 0x73) (by decide) .nil)
  have hpy : Written (.value (.arr [.str "py"])) _ :=
    .arr htab (.lastItem (hstr "py" (by decide)) hspace)
  have htwo : IsNumeral ['2'] := by decide
  have hmembers : Written (.members choices.settings.reverse) _ :=
    .member (hname _ (by decide)) (.bool false) hnone hnone <|
    .member (hname _ (by decide)) (.bool true) hnone hnone <|
    .member (hname _ (by decide)) (.bool false) hnone hnone <|
    .member (hname _ (by decide)) (.bool true) hnone hnone <|
    .member (hname _ (by decide)) hpy hnone hnone <|
    .member (hname _ (by decide)) (.natural htwo) hnone hnone <|
    .member (hname _ (by decide)) (hstr "p" (by decide)) hnone hnone <|
    .lastMember (hname _ (by decide)) hs hnone
  refine ⟨[], _, ['\n'], hnone, .obj (by decide) hbreak hmembers, by decide, ?_⟩
  cbv

/-- A file system with a single file. -/
def singleFile (bytes : ByteArray) : FileSystem where
  nodes := [(["c"], .file bytes)]
  denied := []
  workingDirectory := []
  distinct := List.nodup_singleton _
  named := (by decide : ∀ l ∈ ([["c"]] : List (List Text)), ∀ name ∈ l, isNodeName name = true)

theorem content_singleFile (bytes : ByteArray) :
    (singleFile bytes).content (Path.ofText "c") = .ok bytes :=
  FileSystem.content_eq_ok_iff.2 ⟨by cbv, ["c"], by cbv, List.not_mem_nil, rfl⟩

/-- The file system whose file holds the text. -/
def choicesFile : FileSystem := singleFile (String.ofList choicesText).toUTF8

theorem ofFile_agrees_ofArguments_choices :
    choices.IsHeldBy choicesFile (Path.ofText "c") ∧
      ∃ command, ofFile ⟨[], [], []⟩ choicesFile "c" = .ok command ∧
        ofArguments ⟨[], [], []⟩ choices.arguments = .ok command ∧
        command.announcement = Text.join "\n" choices.config.banner ∧
        ∀ {σ : Type} [Scene σ] (s : σ), command.perform s = choices.config.report s := by
  have htilde : ¬(Path.ofText "c").HasTilde ∧ ¬(Path.ofText "s").HasTilde ∧
      ¬(Path.ofText "p").HasTilde := by
    refine ⟨?_, ?_, ?_⟩ <;> rintro ⟨-, account, rest, h⟩ <;> cases h
  have hfile : choices.IsHeldBy choicesFile (Path.ofText "c") :=
    ⟨choices.settings.reverse, choicesText, List.reverse_perm _, isTextOf_choicesText,
      content_singleFile _⟩
  have hlimit : 2 < 10 ^ Number.digitLimit :=
    Nat.lt_of_lt_of_le (by decide : 2 < 10 ^ 1) (Nat.pow_le_pow_right (by decide) (by decide))
  exact ⟨hfile, ofFile_agrees_ofArguments ⟨[], [], []⟩ choicesFile "c" choices
    htilde.1 htilde.2.1 htilde.2.2 (by decide) hlimit hfile⟩

end Command

end KeyAudit
