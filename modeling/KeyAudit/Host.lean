import KeyAudit.Fault
import KeyAudit.Log.File
import KeyAudit.Log.Scene

/-!
# The host of the program

All that the program finds where it runs and may change there: the file system,
the environment of the user, and the state of logging.
-/

namespace KeyAudit

/-- Where the program runs. -/
structure Host where
  fs : FileSystem
  environment : Environment
  logging : Logging
  /-- The time stamp of what is logged now. -/
  time : Text

namespace Host

/-- Logs a line. -/
def logLine (host : Host) (line : LogLine) : Host :=
  let (fs, logging) := host.logging.emit host.time host.fs line
  { host with fs := fs, logging := logging }

/-- Logs lines. -/
def log (host : Host) (lines : List LogLine) : Host :=
  lines.foldl logLine host

/-- The log of a host is in its file system. -/
instance : Scene Host where
  files host := host.fs
  record host records := host.log (records.map Record.toLine)

/-- The host when its files have been changed from outside. -/
def withFiles (host : Host) (fs : FileSystem) : Host :=
  { host with fs := fs, logging := host.logging.afterRemoval host.fs fs }

/-- Configures logging, in the directory of the program unless another one is
    given. -/
def configureLogging (host : Host) (home? : Option Path) (level : Level) :
    Host × Option Fault :=
  if host.logging.configured then (host, none)
  else
    match home?.elim (host.environment.programHome host.fs) .ok with
    | .error error => (host, some (.home error))
    | .ok home =>
      let (fs, logging, error?) := Logging.configure home level host.fs host.logging
      ({ host with fs := fs, logging := logging }, error?.map .inaccessible)

/-- Ends logging. -/
def resetLogging (host : Host) : Host :=
  { host with logging := host.logging.reset }

end Host

end KeyAudit
