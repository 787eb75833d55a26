import KeyAudit.FileSystem.Resolve
import KeyAudit.Text.Utf8

/-!
# Reading a file system

What a program sees of a file system: whether a path exists, whether it is a
directory, the entries of a directory and the content of a file. Access that is
denied is denied at the real location of a path.
-/

namespace KeyAudit

namespace FileSystem

/-- Whether an access to a path is denied. -/
def denies (fs : FileSystem) (access : Access) (p : Path) : Bool :=
  fs.denied.any fun d => d.1 = access && d.2 = fs.realPath p

/-- Whether there is something at the end of a path. A path that is too long is
    refused, and so is one that goes on from a directory that may not be searched; any
    other path that leads nowhere just does not exist. -/
def isPresent (fs : FileSystem) (p : Path) : Except AccessError Bool :=
  if p.unusable?.isSome then .ok false
  else match fs.resolve p with
    | .ok _ => .ok true
    | .error errno =>
      if errno.isInconclusive then .error (.refused errno p.toText) else .ok false

/-- A system call takes the path of what is there. -/
theorem unusable?_of_isPresent {fs : FileSystem} {p : Path} (h : fs.isPresent p = .ok true) :
    p.unusable? = none := by
  unfold isPresent at h
  split at h
  · cases h
  · case isFalse hu => exact Option.not_isSome_iff_eq_none.1 hu

/-- Asks whether a path leads to a directory. -/
def askDirectory (fs : FileSystem) (p : Path) : Except AccessError Bool :=
  if p.unusable?.isSome then .ok false
  else if fs.denies .kind p then .error (.refused .permissionDenied p.toText)
  else match fs.resolve p with
    | .ok l => .ok (fs.hasDirectory l)
    | .error errno =>
      if errno.isInconclusive then .error (.refused errno p.toText) else .ok false

/-- Whether a path leads to a directory. One that cannot be asked for is none. -/
def isDirectory (fs : FileSystem) (p : Path) : Bool :=
  (fs.askDirectory p).toOption.getD false

theorem denies_iff {fs : FileSystem} {access : Access} {p : Path} :
    fs.denies access p = true ↔ (access, fs.realPath p) ∈ fs.denied := by
  unfold denies
  rw [List.any_eq_true]
  constructor
  · rintro ⟨⟨a, l⟩, hd, h⟩
    simp only [Bool.and_eq_true, decide_eq_true_eq] at h
    rwa [← h.1, ← h.2]
  · exact fun h => ⟨_, h, by simp⟩

theorem isDirectory_iff {fs : FileSystem} {p : Path} :
    fs.isDirectory p = true ↔ p.unusable? = none ∧
      ∃ l, fs.resolve p = .ok l ∧ fs.hasDirectory l = true ∧ (Access.kind, l) ∉ fs.denied := by
  unfold isDirectory askDirectory
  cases hu : p.unusable? with
  | some error => simp [Except.toOption]
  | none =>
    cases hr : fs.resolve p with
    | error errno =>
      by_cases hd : fs.denies .kind p = true <;> cases hi : errno.isInconclusive <;>
        simp [hd, hi, Except.toOption]
    | ok l =>
      -- Access is denied at the real location, which is where the path leads.
      have hd : fs.denies .kind p = true ↔ (Access.kind, l) ∈ fs.denied := by
        rw [denies_iff, realPath_of_resolve hr]
      by_cases h : (Access.kind, l) ∈ fs.denied
      · simp [hd.2 h, h, Except.toOption]
      · simp [mt hd.1 h, h, Except.toOption]

/-- The names of the entries of a directory. -/
def list (fs : FileSystem) (p : Path) : Except AccessError (List Text) :=
  match p.unusable? with
  | some error => .error error
  | none =>
    if fs.denies .list p then .error (.refused .permissionDenied p.toText)
    else match fs.resolve p with
      | .error errno => .error (.refused errno p.toText)
      | .ok l =>
        if fs.hasDirectory l then .ok (fs.entries l)
        else .error (.refused .notDirectory p.toText)

/-- What can be listed is a directory, to which listing is not denied. -/
theorem list_eq_ok_iff {fs : FileSystem} {p : Path} {names : List Text} :
    fs.list p = .ok names ↔ p.unusable? = none ∧ ∃ l, fs.resolve p = .ok l ∧
      fs.hasDirectory l = true ∧ (Access.list, l) ∉ fs.denied ∧ fs.entries l = names := by
  unfold list
  cases hu : p.unusable? with
  | some error => simp
  | none =>
    cases hr : fs.resolve p with
    | error errno => by_cases hd : fs.denies .list p = true <;> simp [hd]
    | ok l =>
      have hd : fs.denies .list p = true ↔ (Access.list, l) ∈ fs.denied := by
        rw [denies_iff, realPath_of_resolve hr]
      by_cases h : (Access.list, l) ∈ fs.denied
      · simp [hd.2 h, h]
      · by_cases hl : fs.hasDirectory l = true <;> simp [mt hd.1 h, h, hl]

/-- Only the operating system keeps a path from being listed that it takes. -/
theorem isRefusal_of_list {fs : FileSystem} {p : Path} {error : AccessError}
    (hp : p.unusable? = none) (h : fs.list p = .error error) : error.isRefusal = true := by
  unfold list at h
  simp only [hp] at h
  split at h
  · cases h
    rfl
  · split at h
    · cases h
      rfl
    · split at h
      · cases h
      · cases h
        rfl

/-- The content of a file. -/
def content (fs : FileSystem) (p : Path) : Except AccessError ByteArray :=
  match p.unusable? with
  | some error => .error error
  | none =>
    if fs.denies .read p then .error (.refused .permissionDenied p.toText)
    else match fs.resolve p with
      | .error errno => .error (.refused errno p.toText)
      | .ok l =>
        match fs.node? l with
        | some (.file content) => .ok content
        | some .directory => .error (.refused .isDirectory p.toText)
        | _ => .error (.refused .noEntry p.toText)

/-- What can be read is a file, to which reading is not denied. -/
theorem content_eq_ok_iff {fs : FileSystem} {p : Path} {bytes : ByteArray} :
    fs.content p = .ok bytes ↔ p.unusable? = none ∧ ∃ l, fs.resolve p = .ok l ∧
      (Access.read, l) ∉ fs.denied ∧ fs.node? l = some (.file bytes) := by
  unfold content
  cases hu : p.unusable? with
  | some error => simp
  | none =>
    cases hr : fs.resolve p with
    | error errno => by_cases hd : fs.denies .read p = true <;> simp [hd]
    | ok l =>
      have hd : fs.denies .read p = true ↔ (Access.read, l) ∈ fs.denied := by
        rw [denies_iff, realPath_of_resolve hr]
      by_cases h : (Access.read, l) ∈ fs.denied
      · simp [hd.2 h, h]
      · rcases hn : fs.node? l with _ | (_ | _ | _) <;> simp [mt hd.1 h, h, hn]

/-- Only the operating system keeps a file from being read whose path it takes. -/
theorem isRefusal_of_content {fs : FileSystem} {p : Path} {error : AccessError}
    (hp : p.unusable? = none) (h : fs.content p = .error error) : error.isRefusal = true := by
  unfold content at h
  simp only [hp] at h
  split at h
  · cases h
    rfl
  · split at h
    · cases h
      rfl
    · split at h
      · cases h
      · cases h
        rfl
      · cases h
        rfl

end FileSystem

/-- Why the text of a file cannot be had. -/
inductive TextError
  /-- The file cannot be read. -/
  | inaccessible (error : AccessError)
  /-- The content of the file is no text. -/
  | undecodable (fault : Text.Utf8.Fault)
deriving Repr, DecidableEq

/-- The wording of an error. -/
def TextError.message : TextError → Text
  | .inaccessible error => error.message
  | .undecodable fault => fault.message

/-- The text of a file. -/
def FileSystem.text (fs : FileSystem) (p : Path) : Except TextError Text :=
  match fs.content p with
  | .error error => .error (.inaccessible error)
  | .ok content =>
    match Text.Utf8.decode content.data.toList with
    | .error fault => .error (.undecodable fault)
    | .ok characters => .ok (Text.ofChars characters)

/-- A file whose text can be had is there. -/
theorem FileSystem.isPresent_of_text {fs : FileSystem} {p : Path} {text : Text}
    (h : fs.text p = .ok text) : fs.isPresent p = .ok true := by
  rw [FileSystem.text] at h
  cases hc : fs.content p with
  | error error =>
    rw [hc] at h
    cases h
  | ok content =>
    obtain ⟨hp, l, hr, -⟩ := content_eq_ok_iff.1 hc
    rw [isPresent, hp, hr]
    rfl

/-- A text that cannot be had of a path that a system call takes is refused, or none. -/
theorem FileSystem.isRefusal_of_text {fs : FileSystem} {p : Path} {error : AccessError}
    (hp : p.unusable? = none) (h : fs.text p = .error (.inaccessible error)) :
    error.isRefusal = true := by
  rw [text] at h
  cases hc : fs.content p with
  | error e =>
    simp only [hc] at h
    cases h
    exact isRefusal_of_content hp hc
  | ok content =>
    simp only [hc] at h
    split at h
    · cases h
    · cases h

end KeyAudit
