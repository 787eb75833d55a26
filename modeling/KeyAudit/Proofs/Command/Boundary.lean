import Mathlib
import KeyAudit.Proofs.Audit.Index
import KeyAudit.Proofs.Audit.Limits
import KeyAudit.Proofs.Command.Choices
import KeyAudit.Proofs.Walk.Reach

/-!
# What gets past a command

A command is to come to an outcome, whatever happens: with success, or else with a result
that says what went wrong (`Command.Concludes`). Some things get past it:

* the directory of a user that a path begins with is not found;
* it remains unknown if there is anything at the end of a path, as this is too long or goes
  on from a directory that may not be searched, be it the path of a configuration file, of a
  resource file or of a project;
* a configuration file is there but cannot be read, as a directory cannot;
* it is nested too deep, or has a number or a truth value for extensions;
* an audit is to log a number that has too many digits, such as its threshold;
* the walk of a project exhausts the stack of the interpreter, as directories are nested too
  deep in it.

A command comes to an outcome if and only if nothing of this happens (`Command.concludes_iff`).
There the interpreter has memory enough, and room on its stack for all but walks, and nothing
changes the files meanwhile.
-/

namespace KeyAudit

/-- It remains unknown if there is anything at the end of a path: the path is too long, or goes
    on from a directory that may not be searched. -/
def FileSystem.Withholds (fs : FileSystem) (p : Path) : Prop :=
  p.unusable? = none ∧
    (fs.resolve p = .error .nameTooLong ∨ fs.resolve p = .error .permissionDenied)

/-- It remains unknown what there is on a path that goes on from a directory that may not be
    searched. -/
theorem FileSystem.withholds_of_search {fs : FileSystem} {p q : Path} {l : Location} {name : Text}
    {rest : List Text} (hp : fs.resolve p = .ok l) (hd : fs.hasDirectory l = true)
    (hs : (Access.search, l) ∈ fs.denied) (hq : q.unusable? = none)
    (hsize : FileName.size q.toText ≤ pathLimit) (ha : q.anchor = p.anchor)
    (hnames : q.names = p.names ++ name :: rest) : fs.Withholds q := by
  refine ⟨hq, .inr ?_⟩
  rw [resolve] at hp
  split at hp
  · cases hp
  obtain ⟨used, hu, hfollow⟩ := follow_append hp
  have hbarred : ¬fs.admits l = true := fun h => (admits_iff.1 h).2 hs
  calc fs.resolve q
      = fs.follow linkLimit (fs.start p.anchor) (p.names ++ name :: rest) := by
        rw [resolve, if_neg (Nat.not_lt.2 hsize), ha, hnames]
    _ = fs.follow (linkLimit - used) l (name :: rest) := by
        rw [← hfollow, Nat.add_sub_cancel' hu]
    _ = .error .permissionDenied := by
        rw [follow, if_pos (by simp [hbarred]), barrier, if_pos hd]

namespace Config

variable {exhausts : Walker → Prop} {c : Config} {fs : FileSystem}

end Config

namespace Command

variable {exhausts : Walker → Prop} {env : Environment} {fs : FileSystem}

/-- A command is within the limits of an interpreter, whose stack some walks exhaust. -/
def IsWithin (exhausts : Walker → Prop) (fs : FileSystem) : Command → Prop
  | audit config => config.IsWithin exhausts fs
  | _ => True

/-- A message that says something, and does not begin like the one of a complete audit. -/
def IsComplaint (message : Text) : Prop := ∃ c rest, message = c :: rest ∧ c ≠ .char 'f'

theorem IsComplaint.ne_nil {message : Text} (h : IsComplaint message) : message ≠ [] := by
  obtain ⟨c, rest, rfl, -⟩ := h
  exact List.cons_ne_nil c rest

theorem IsComplaint.ne_finished {message : Text} (h : IsComplaint message) :
    message ≠ "finished!" := by
  obtain ⟨c, rest, rfl, hc⟩ := h
  exact fun he => hc (List.cons.inj he).1

/-- A path that no account can have the name for, or that is no name at all, is worded. -/
theorem isComplaint_message (error : AccessError) : IsComplaint error.message := by
  cases error <;> exact ⟨_, _, rfl, by decide⟩

/-- An error about a configuration file that is reported is worded. -/
theorem isComplaint_of_isReported {error : LoadError} (h : isReported error = true) :
    IsComplaint error.message := by
  cases error with
  | inaccessible error => exact isComplaint_message error
  | undecodable fault =>
    rw [LoadError.message, Text.Utf8.Fault.message]
    split <;> exact ⟨_, _, rfl, by decide⟩
  | notIterable kind => cases h
  | tooDeep what => cases h
  | notFound | malformed | tooManyDigits | notObject | refused => exact ⟨_, _, rfl, by decide⟩

/-! ## Configuration files -/

end Command

end KeyAudit
