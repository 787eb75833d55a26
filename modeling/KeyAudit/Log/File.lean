import KeyAudit.Environment
import KeyAudit.Log.Channel
import KeyAudit.Log.Handler
import KeyAudit.Log.Record

/-!
# The state of logging

Lines are logged to a file in the directory of the program once logging has been
configured. Only the first configuration counts until logging is reset; one that
fails leaves logging as it was but for the level, so that a later one may
succeed.

A line is logged if its level is taken from its channel and the channel leads to that
of the program. Whether a level is taken from a channel is decided once, when the first
such line comes; it is decided anew only after the level of logging has been set.

* `Logging.configure` and `Logging.reset` change what is logged and where;
* `Logging.emit` logs a line.
-/

namespace KeyAudit

/-- The state of logging. -/
structure Logging where
  /-- The level below which lines are dropped. -/
  level : Level
  /-- What lines are appended to. -/
  handlers : List Handler
  /-- Whether a configuration has succeeded since the last reset. -/
  configured : Bool
  /-- The channels that are open. -/
  channels : List Text
  /-- The channels and levels for which it is decided whether they are taken. -/
  decisions : List ((Text × Level) × Bool)
deriving Repr, DecidableEq

namespace Logging

/-- The channel of the program. -/
def rootChannel : Text := "locheck"

/-- The state at first. -/
def initial : Logging := ⟨.unset, [], false, [rootChannel], []⟩

/-- The name of the log file. -/
def fileName : Text := "locheck.log"

/-- The absolute path of a path, with every `..` taken by its name. -/
def absolutePath (fs : FileSystem) (p : Path) : Path :=
  FileSystem.pathOf (FileSystem.descend (fs.start p.anchor) p.names)

/-- Sets the level. -/
def setLevel (s : Logging) (level : Level) : Logging :=
  { s with level := level, decisions := [] }

/-- Configures logging to a file in the directory `home`. -/
def configureIn (home : Path) (level : Level) (fs : FileSystem) (s : Logging) :
    FileSystem × Logging × Option AccessError :=
  match fs.makeDirectories home with
  | (fs, some error) => (fs, s, some error)
  | (fs, none) =>
    let s := s.setLevel level
    let file := absolutePath fs (home.child fileName)
    match Stream.opened fs file with
    | .error error => (fs, s, some error)
    | .ok (fs, stream) =>
      (fs, { s with handlers := s.handlers ++ [⟨file, stream⟩], configured := true }, none)

/-- Configures logging to a file in a directory, unless it is configured. -/
def configure (home : Path) (level : Level) (fs : FileSystem) (s : Logging) :
    FileSystem × Logging × Option AccessError :=
  if s.configured then (fs, s, none) else configureIn home level fs s

/-- Ends logging; the level stays. -/
def reset (s : Logging) : Logging :=
  { s with handlers := [], configured := false }

/-- Opens a channel, unless it is open. -/
def openChannel (s : Logging) (channel : Text) : Logging :=
  if s.channels.contains channel then s else { s with channels := channel :: s.channels }

/-- Whether the lines of a channel come to that of the program. -/
def isHeard (s : Logging) (channel : Text) : Bool :=
  Channel.leadsTo s.channels rootChannel channel

/-- The level that counts for a channel: that of logging if it is set and the channel
    is heard, otherwise warnings and what is worse. -/
def effectiveLevel (s : Logging) (channel : Text) : Level :=
  if s.isHeard channel && s.level ≠ .unset then s.level else .warning

/-- Whether a level is taken from a channel. One that does not rank above `unset` never is. -/
def takes (s : Logging) (channel : Text) (level : Level) : Bool :=
  (s.decisions.lookup (channel, level)).getD
    (Level.unset.rank < level.rank && (s.effectiveLevel channel).rank ≤ level.rank)

/-- Keeps to what is decided for a level of a channel. -/
def decideOn (s : Logging) (channel : Text) (level : Level) : Logging :=
  if (s.decisions.lookup (channel, level)).isSome then s
  else { s with decisions := ((channel, level), s.takes channel level) :: s.decisions }

/-- The state in which it is told whether a line is logged: its channel is open, and
    whether its level is taken is decided. -/
def prepare (s : Logging) (line : LogLine) : Logging :=
  (s.openChannel line.channel).decideOn line.channel line.level

/-- Whether a line is logged. -/
def accepts (s : Logging) (line : LogLine) : Bool :=
  s.takes line.channel line.level && s.isHeard line.channel

/-- The text of a line in the log file. -/
def lineText (time : Text) (line : LogLine) : Text :=
  time ++ " - " ++ line.channel ++ " - " ++ line.level.name ++ " - " ++ line.message ++ "\n"

/-- Has a text appended by handlers one after the other. -/
def appendAll (fs : FileSystem) (text : Text) : List Handler → FileSystem × List Handler
  | [] => (fs, [])
  | h :: rest =>
    let (fs, h) := h.emit fs text
    let (fs, rest) := appendAll fs text rest
    (fs, h :: rest)

/-- Logs a line at a time. -/
def emit (s : Logging) (time : Text) (fs : FileSystem) (line : LogLine) : FileSystem × Logging :=
  let s := s.prepare line
  if s.accepts line then
    let (fs, handlers) := appendAll fs (lineText time line) s.handlers
    (fs, { s with handlers := handlers })
  else (fs, s)

/-- The state after files have been removed. -/
def afterRemoval (before after : FileSystem) (s : Logging) : Logging :=
  { s with handlers := s.handlers.map fun h =>
      { h with stream := h.stream.afterRemoval before after } }

end Logging

end KeyAudit
