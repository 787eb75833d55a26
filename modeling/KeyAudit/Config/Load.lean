import KeyAudit.Config.Validation
import KeyAudit.Json.Reader

/-!
# Configuration files

A configuration may be read from a file that holds a JSON object with its
settings. All kinds of line ends count as line feeds.
-/

namespace KeyAudit

/-- Why a configuration file gives no configuration. -/
inductive LoadError
  | notFound (path : Path)
  | inaccessible (error : AccessError)
  | undecodable (fault : Text.Utf8.Fault)
  | malformed (path : Path) (error : Json.ReadError)
  | tooManyDigits (count : Nat)
  | tooDeep (what : Json.Nest)
  | notObject (path : Path)
  | refused (refusal : Refusal)
  | notIterable (kind : Setting.Scalar)

/-- The wording of an error. -/
def LoadError.message : LoadError → Text
  | .notFound path => "Configuration file not found at " ++ path.toText
  | .inaccessible error => error.message
  | .undecodable fault => fault.message
  | .malformed path error => "Invalid JSON in config file " ++ path.toText ++ ": " ++ error.message
  | .tooManyDigits count => (Json.ReadError.tooManyDigits count).message
  | .tooDeep what => (Json.ReadError.tooDeep what).message
  | .notObject path => "Configuration file " ++ path.toText ++ " must hold a JSON object"
  | .refused refusal => "Configuration validation error: " ++ refusal.message
  | .notIterable kind => kind.message

namespace Config

/-- The text with every kind of line end as a line feed. -/
def uniformLineEnds : Text → Text
  | [] => []
  | .char '\r' :: .char '\n' :: rest => '\n' :: uniformLineEnds rest
  | c :: rest => (if c = '\r' then '\n' else c) :: uniformLineEnds rest

/-- Makes a configuration of the text of a configuration file. -/
def ofText (path : Path) (text : Text) : Except LoadError Config :=
  match Json.read (uniformLineEnds text) with
  | .error (.tooManyDigits count) => .error (.tooManyDigits count)
  | .error (.tooDeep what) => .error (.tooDeep what)
  | .error error => .error (.malformed path error)
  | .ok (.obj settings) =>
    match ofSettings settings with
    | .ok config => .ok config
    | .error (.notIterable kind) => .error (.notIterable kind)
    | .error (.refused first _) => .error (.refused first)
  | .ok _ => .error (.notObject path)

/-- Reads a configuration file. -/
def load (fs : FileSystem) (path : Path) : Except LoadError Config :=
  match fs.isPresent path with
  | .error error => .error (.inaccessible error)
  | .ok false => .error (.notFound path)
  | .ok true =>
    match fs.text path with
    | .error (.inaccessible error) => .error (.inaccessible error)
    | .error (.undecodable fault) => .error (.undecodable fault)
    | .ok text => ofText path text

theorem load_of_text {fs : FileSystem} {path : Path} {text : Text}
    (h : fs.text path = .ok text) : load fs path = ofText path text := by
  rw [load, FileSystem.isPresent_of_text h, h]

variable {path : Path} {text : Text} {settings : List (Text × Json)}

/-- The configuration that a text holds is that of its settings. -/
theorem ofText_of_settings {config : Config}
    (hr : Json.read (uniformLineEnds text) = .ok (.obj settings))
    (hs : ofSettings settings = .ok config) : ofText path text = .ok config := by
  rw [ofText, hr]
  simp only [hs]

end Config

end KeyAudit
