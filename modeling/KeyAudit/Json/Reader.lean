import KeyAudit.Assignment
import KeyAudit.Json.Basic
import KeyAudit.Number.Integer
import KeyAudit.Text.Split

/-!
# Reading JSON

A reader for JSON texts that says where and why it stops. It takes the notation
a little wider than the standard: `NaN`, `Infinity` and `-Infinity` are numbers.
Of members of one name the last counts, at the place of the first. Blank space is
the space, the tab, the line feed and the carriage return.

* `Json.read` reads a whole text;
* `Json.ReadError.message` words an error, with its line, its column and its
  distance from the start of the text.

Values are only read as long as arrays and objects are not nested too deep.

The readers of the parts return what is left of the text. On an error they give
the part of the text that starts where the error is, from which the place is
computed at the end. The number they take first bounds the number of their steps,
of which there are at most two for every character.
-/

namespace KeyAudit.Json

open Text

/-- Why a text is not JSON. -/
inductive Misread
  | byteOrderMark
  | valueExpected
  | nameExpected
  | colonExpected
  | commaExpected
  | extraData
  | unterminatedString
  | controlCharacter
  | unknownEscape
  | unicodeEscape
deriving Repr, DecidableEq

/-- The wording of a reason. -/
def Misread.message : Misread → Text
  | .byteOrderMark => "Unexpected UTF-8 BOM (decode using utf-8-sig)"
  | .valueExpected => "Expecting value"
  | .nameExpected => "Expecting property name enclosed in double quotes"
  | .colonExpected => "Expecting ':' delimiter"
  | .commaExpected => "Expecting ',' delimiter"
  | .extraData => "Extra data"
  | .unterminatedString => "Unterminated string starting at"
  | .controlCharacter => "Invalid control character at"
  | .unknownEscape => "Invalid \\escape"
  | .unicodeEscape => "Invalid \\uXXXX escape"

/-- What may be nested. -/
inductive Nest
  | array
  | object
deriving Repr, DecidableEq

/-- The name of what may be nested. -/
def Nest.name : Nest → Text
  | array => "array"
  | object => "object"

/-- How deep arrays and objects may be nested. -/
def nestingLimit : Nat := 989

/-- Where and why reading stopped; `rest` is the text from there on. -/
inductive Stop
  | misread (why : Misread) (rest : Text)
  | tooManyDigits (count : Nat)
  | tooDeep (what : Nest)

/-- What a reader makes of a text: a value and the rest of the text. -/
abbrev Read (α : Type) := Except Stop (α × Text)

/-- Whether a code point is blank space in JSON. -/
def isSpace (c : CodePoint) : Bool :=
  c == ' ' || c == '\t' || c == '\n' || c == '\r'

/-- The text without blank space in front. -/
def skipSpace (s : Text) : Text :=
  s.dropWhile isSpace

/-- The value of a hexadecimal digit. -/
def hexDigit? (c : CodePoint) : Option Nat :=
  if c.isBetween '0' '9' then some (c.toNat - '0'.toNat)
  else if c.isBetween 'a' 'f' then some (c.toNat - 'a'.toNat + 10)
  else if c.isBetween 'A' 'F' then some (c.toNat - 'A'.toNat + 10)
  else none

/-- The value of four hexadecimal digits. -/
def hexUnit? (a b c d : CodePoint) : Option Nat := do
  return (((← hexDigit? a) * 16 + (← hexDigit? b)) * 16 + (← hexDigit? c)) * 16 + (← hexDigit? d)

/-- What a code point after a backslash stands for. -/
def escaped? (c : CodePoint) : Option CodePoint :=
  match c with
  | .char '"' => some '"'
  | .char '\\' => some '\\'
  | .char '/' => some '/'
  | .char 'b' => some '\x08'
  | .char 'f' => some '\x0c'
  | .char 'n' => some '\n'
  | .char 'r' => some '\r'
  | .char 't' => some '\t'
  | _ => none

/-- The part of a string that is read, last code point first, with the first half
    of a surrogate pair after it if its second half may follow. -/
structure Chars where
  done : Text
  first : Option Surrogate

/-- The part that is read when no second half follows. -/
def Chars.settle (cs : Chars) : Text :=
  match cs.first with
  | some first => .half first :: cs.done
  | none => cs.done

/-- The part that is read with another code point after it. -/
def Chars.push (cs : Chars) (c : CodePoint) : Chars :=
  ⟨c :: cs.settle, none⟩

/-- The part that is read with another code unit after it. -/
def Chars.pushUnit (cs : Chars) (unit : Nat) : Chars :=
  match Surrogate.ofUnit? unit, cs.first with
  | none, _ => cs.push (.char (Char.ofNat unit))
  | some half, some first =>
    if half.isFirst then ⟨cs.settle, some half⟩ else ⟨.char (first.join half) :: cs.done, none⟩
  | some half, none => if half.isFirst then ⟨cs.done, some half⟩ else cs.push (.half half)

/-- Reads the rest of a string after the part `cs`. The text `start` begins
    with the quote that opens the string. -/
def readChars (start : Text) (cs : Chars) : Text → Read Text
  | [] => .error (.misread .unterminatedString start)
  | .char '"' :: rest => .ok (cs.settle.reverse, rest)
  | [.char '\\'] => .error (.misread .unterminatedString start)
  | .char '\\' :: .char 'u' :: a :: b :: c :: d :: rest =>
    match if rest.isEmpty then none else hexUnit? a b c d with
    | some unit => readChars start (cs.pushUnit unit) rest
    | none => .error (.misread .unicodeEscape ('u' :: a :: b :: c :: d :: rest))
  | .char '\\' :: .char 'u' :: rest => .error (.misread .unicodeEscape ('u' :: rest))
  | .char '\\' :: c :: rest =>
    match escaped? c with
    | some e => readChars start (cs.push e) rest
    | none => .error (.misread .unknownEscape ('\\' :: c :: rest))
  | c :: rest =>
    if c.toNat < 0x20 then .error (.misread .controlCharacter (c :: rest))
    else readChars start (cs.push c) rest

/-- Reads a string after its opening quote. -/
def readString (rest : Text) : Read Text :=
  readChars ('"' :: rest) ⟨[], none⟩ rest

/-- Whether a code point is one of the ten digits. -/
def isDigit (c : CodePoint) : Bool := c.isBetween '0' '9'

/-- The digits at the start of a text and the rest. -/
def takeDigits (s : Text) : Text × Text :=
  (s.takeWhile isDigit, s.dropWhile isDigit)

/-- The number with the given digits. -/
def digitsValue (digits : Text) : Nat :=
  digits.foldl (fun n c => 10 * n + (c.toNat - '0'.toNat)) 0

/-- The digits after a decimal point, if there are any. -/
def takeFraction : Text → Text × Text
  | .char '.' :: c :: rest => if isDigit c then takeDigits (c :: rest) else ([], '.' :: c :: rest)
  | s => ([], s)

/-- The exponent at the start of a text, if there is one. -/
def takeExponent (s : Text) : Option Int × Text :=
  match s with
  | c :: rest =>
    if c = 'e' ∨ c = 'E' then
      let (negative, rest) := Number.sign rest
      match takeDigits rest with
      | ([], _) => (none, s)
      | (digits, rest) => (some (Number.withSign negative (digitsValue digits)), rest)
    else (none, s)
  | [] => (none, s)

/-- Reads a number with the given sign and at least one digit in front. A number
    that starts with zero has no other digit before the point. The text `start`
    begins with the number. -/
def readUnsigned (start : Text) (negative : Bool) (s : Text) : Read Json :=
  let (whole, rest) : Text × Text :=
    match s with
    | .char '0' :: rest => (['0'], rest)
    | s => takeDigits s
  if whole.isEmpty then .error (.misread .valueExpected start)
  else
    let (fraction, rest) := takeFraction rest
    let (exponent, rest) := takeExponent rest
    if fraction.isEmpty && exponent.isNone then
      if whole.length > Number.digitLimit then .error (.tooManyDigits whole.length)
      else .ok (.int (Number.withSign negative (digitsValue whole)), rest)
    else
      let digits := digitsValue (whole ++ fraction)
      let x := Binary64.ofDecimal negative digits (exponent.getD 0 - fraction.length)
      .ok (.float x, rest)

/-- Reads a number, with or without a minus. -/
def readNumber (s : Text) : Read Json :=
  match s with
  | .char '-' :: rest => readUnsigned s true rest
  | _ => readUnsigned s false s

/-- The values that are written as a word. -/
def words : List (Text × Json) := [
  ("null", .null), ("true", .bool true), ("false", .bool false), ("NaN", .float .nan),
  ("Infinity", .float (.infinite false)), ("-Infinity", .float (.infinite true))]

/-- The value whose word a text starts with, and the rest of the text. -/
def word? (s : Text) : Option (Json × Text) :=
  words.findSome? fun (word, value) =>
    if word.isPrefixOf s then some (value, s.drop word.length) else none

mutual

/-- Reads a value that starts at once, in which arrays and objects may be nested as
    deep as `depth`. -/
def readValue (fuel depth : Nat) (s : Text) : Read Json :=
  match fuel with
  | 0 => .error (.misread .valueExpected s)
  | fuel + 1 =>
    match s with
    | .char '"' :: rest =>
      match readString rest with
      | .ok (text, rest) => .ok (.str text, rest)
      | .error stop => .error stop
    | .char '{' :: rest =>
      match depth, skipSpace rest with
      | 0, _ => .error (.tooDeep .object)
      | _, .char '}' :: rest => .ok (.obj [], rest)
      | depth + 1, rest => readMembers fuel depth [] rest
    | .char '[' :: rest =>
      match depth, skipSpace rest with
      | 0, _ => .error (.tooDeep .array)
      | _, .char ']' :: rest => .ok (.arr [], rest)
      | depth + 1, rest => readItems fuel depth [] rest
    | s =>
      match word? s with
      | some read => .ok read
      | none => readNumber s

/-- Reads the items of an array from the next one on; those before it are
    `done`, last first. -/
def readItems (fuel depth : Nat) (done : List Json) (s : Text) : Read Json :=
  match fuel with
  | 0 => .error (.misread .valueExpected s)
  | fuel + 1 =>
    match readValue fuel depth s with
    | .error stop => .error stop
    | .ok (item, rest) =>
      match skipSpace rest with
      | .char ']' :: rest => .ok (.arr (item :: done).reverse, rest)
      | .char ',' :: rest => readItems fuel depth (item :: done) (skipSpace rest)
      | rest => .error (.misread .commaExpected rest)

/-- Reads the members of an object from the next one on, after those in
    `done`. -/
def readMembers (fuel depth : Nat) (done : List (Text × Json)) (s : Text) : Read Json :=
  match fuel with
  | 0 => .error (.misread .nameExpected s)
  | fuel + 1 =>
    match s with
    | .char '"' :: rest =>
      match readString rest with
      | .error stop => .error stop
      | .ok (name, rest) =>
        match skipSpace rest with
        | .char ':' :: rest =>
          match readValue fuel depth (skipSpace rest) with
          | .error stop => .error stop
          | .ok (value, rest) =>
            match skipSpace rest with
            | .char '}' :: rest => .ok (.obj (assign name value done), rest)
            | .char ',' :: rest => readMembers fuel depth (assign name value done) (skipSpace rest)
            | rest => .error (.misread .commaExpected rest)
        | rest => .error (.misread .colonExpected rest)
    | s => .error (.misread .nameExpected s)

end

/-- Why a text was not read. -/
inductive ReadError
  /-- The text is not JSON, as seen at a distance from its start. -/
  | misread (why : Misread) (text : Text) (position : Nat)
  /-- An integer has too many digits. -/
  | tooManyDigits (count : Nat)
  /-- Arrays or objects are nested too deep. -/
  | tooDeep (what : Nest)

/-- The line, counted from one, of a place in a text. -/
def lineOf (text : Text) (position : Nat) : Nat :=
  (text.take position).countP (fun c : CodePoint => c = '\n') + 1

/-- The column, counted from one, of a place in a text. -/
def columnOf (text : Text) (position : Nat) : Nat :=
  (Text.takeUntil '\n' (text.take position).reverse).length + 1

/-- The wording of an error. -/
def ReadError.message : ReadError → Text
  | .misread why text position =>
    why.message ++ ": line " ++ toString (lineOf text position) ++ " column " ++
      toString (columnOf text position) ++ " (char " ++ toString position ++ ")"
  | .tooManyDigits count =>
    "Exceeds the limit (" ++ toString Number.digitLimit ++
      " digits) for integer string conversion: value has " ++ toString count ++
      " digits; use sys.set_int_max_str_digits() to increase the limit"
  | .tooDeep what =>
    "maximum recursion depth exceeded while decoding a JSON " ++ what.name ++
      " from a unicode string"

/-- Locates the place where reading stopped. -/
def Stop.locate (text : Text) : Stop → ReadError
  | .misread why rest => .misread why text (text.length - rest.length)
  | .tooManyDigits count => .tooManyDigits count
  | .tooDeep what => .tooDeep what

/-- Reads the value that a whole text is. -/
def read (text : Text) : Except ReadError Json :=
  match text with
  | .char '\uFEFF' :: _ => .error (.misread .byteOrderMark text 0)
  | _ =>
    match readValue (2 * text.length + 1) nestingLimit (skipSpace text) with
    | .error stop => .error (stop.locate text)
    | .ok (value, rest) =>
      match skipSpace rest with
      | [] => .ok value
      | rest => .error (Stop.locate text (.misread .extraData rest))

end KeyAudit.Json
