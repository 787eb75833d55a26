import KeyAudit.FileSystem.Edit

/-!
# Log files

A handler appends lines to a file through a stream. The stream belongs to the file
and not to its path: when the file is removed the stream still writes to it, though
nobody sees that any more.

The file is kept below a size: before a line that would reach it the file gives
way to a new one, and up to three older files are kept. Only a file gives way, not
something else that has taken its path. A line is lost if it cannot be encoded, if
the file cannot be opened, or if no room can be made for it.

* `Handler.rotate` makes room for a new file;
* `Handler.emit` appends a line.
-/

namespace KeyAudit

/-- Where lines for a log file are written. -/
inductive Stream
  /-- Nowhere: the file is opened when the next line comes. -/
  | closed
  /-- The file at a location. -/
  | attached (place : Location)
  /-- A file of a size that has been removed since it was opened. -/
  | detached (size : Nat)
deriving Repr, DecidableEq

namespace Stream

/-- Opens a file for appending, which makes an empty one if need be. -/
def opened (fs : FileSystem) (p : Path) : Except AccessError (FileSystem × Stream) :=
  match fs.filePlace p with
  | .error error => .error error
  | .ok l => .ok (fs.put l (.file (fs.contentAt l)), .attached l)

/-- The size of the file behind a stream. -/
def size (fs : FileSystem) : Stream → Nat
  | closed => 0
  | attached l => (fs.contentAt l).size
  | detached size => size

/-- Writes a text. -/
def write (fs : FileSystem) (text : String) : Stream → FileSystem × Stream
  | closed => (fs, closed)
  | attached l => (fs.put l (.file (fs.contentAt l ++ text.toUTF8)), attached l)
  | detached size => (fs, detached (size + text.utf8ByteSize))

/-- The stream after files have been removed. -/
def afterRemoval (before after : FileSystem) : Stream → Stream
  | attached l =>
    match after.node? l with
    | some (.file _) => attached l
    | _ => detached (before.contentAt l).size
  | stream => stream

end Stream

/-- What appends lines to a file. -/
structure Handler where
  file : Path
  stream : Stream
deriving Repr, DecidableEq

namespace Handler

/-- The size in bytes that a log file does not reach. -/
def sizeLimit : Nat := 5242880

/-- How many older files are kept. -/
def olderFiles : Nat := 3

/-- The path of the `n`-th older file. -/
def older (p : Path) (n : Nat) : Path :=
  match p.names.getLast? with
  | some name => { p with names := p.names.dropLast ++ [name ++ "." ++ toString n] }
  | none => p

/-- Whether there is something at the end of a path. -/
def isThere (fs : FileSystem) (p : Path) : Bool :=
  (fs.isPresent p).toOption.getD false

/-- Whether there is something else than a file at the end of a path. -/
def isObstructed (fs : FileSystem) (p : Path) : Bool :=
  match fs.resolve p with
  | .ok l =>
    match fs.node? l with
    | some (.file _) => false
    | _ => true
  | .error _ => false

/-- Removes what is at the end of a path, if anything is. -/
def clear (fs : FileSystem) (p : Path) : Except Errno FileSystem :=
  if isThere fs p then fs.unlink p else .ok fs

/-- Gives a file another path, in place of one that is there. The flag tells whether
    that succeeds; a file that is not there is no failure. -/
def shift (fs : FileSystem) (p q : Path) : FileSystem × Bool :=
  match clear fs q with
  | .error _ => (fs, false)
  | .ok fs =>
    match fs.move p q with
    | .error _ => (fs, false)
    | .ok fs => (fs, true)

/-- Makes every older file one older, as far as that succeeds; the oldest is lost. -/
def shiftOlder (fs : FileSystem) (p : Path) : (count : Nat) → FileSystem × Bool
  | 0 => (fs, true)
  | n + 1 =>
    match if isThere fs (older p (n + 1)) then shift fs (older p (n + 1)) (older p (n + 2))
      else (fs, true) with
    | (fs, true) => shiftOlder fs p n
    | failed => failed

/-- Makes room for a new file: every older file becomes one older, the oldest is
    lost, and the file itself becomes the youngest of them. The flag tells whether
    that succeeds. -/
def rotate (fs : FileSystem) (p : Path) : FileSystem × Bool :=
  match shiftOlder fs p (olderFiles - 1) with
  | (fs, true) =>
    match clear fs (older p 1) with
    | .error _ => (fs, false)
    | .ok fs => if isThere fs p then shift fs p (older p 1) else (fs, true)
  | failed => failed

/-- Opens the file, unless it is open. -/
def opened (fs : FileSystem) (h : Handler) : Except AccessError (FileSystem × Handler) :=
  match h.stream with
  | .closed => (Stream.opened fs h.file).map fun (fs, stream) => (fs, { h with stream := stream })
  | _ => .ok (fs, h)

/-- Appends a text to the file, however large it is. -/
def append (fs : FileSystem) (h : Handler) (text : Text) : FileSystem × Handler :=
  match h.opened fs with
  | .error _ => (fs, h)
  | .ok (fs, h) =>
    match Text.encode text with
    | .error _ => (fs, h)
    | .ok line =>
      let (fs, stream) := h.stream.write fs line
      (fs, { h with stream := stream })

/-- Appends a text, after room has been made if the file would grow too large. -/
def emit (fs : FileSystem) (h : Handler) (text : Text) : FileSystem × Handler :=
  if isObstructed fs h.file then append fs h text
  else match h.opened fs with
    | .error _ => (fs, h)
    | .ok (fs, h) =>
      if h.stream.size fs + text.length < sizeLimit then append fs h text
      else match rotate fs h.file with
        | (fs, true) => append fs { h with stream := .closed } text
        | (fs, false) => (fs, { h with stream := .closed })

end Handler

end KeyAudit
