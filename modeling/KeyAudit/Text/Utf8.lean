import KeyAudit.Text.Basic

/-!
# Strict UTF-8

Octets are read as UTF-8 by a machine that looks at one octet at a time. Between
two characters it has nothing pending; inside a character it knows how many
octets are still due and which values the next one may have. These bounds are
what excludes overlong forms, surrogates and values above U+10FFFF, so the
machine refuses at the first octet that no longer belongs to a character.

* `decode` gives the characters, or the first `Fault`: the octets that began a
  character but do not continue as one, at least one, and the reason;
* `Fault.message` is the wording of a fault.
-/

namespace KeyAudit.Text.Utf8

/-- Why octets are no character. -/
inductive Reason
  /-- The octet cannot begin a character. -/
  | invalidStart
  /-- The next octet does not continue the character. -/
  | invalidContinuation
  /-- The text ends within the character. -/
  | unexpectedEnd
deriving Repr, DecidableEq

/-- The wording of a reason. -/
def Reason.message : Reason → Text
  | .invalidStart => "invalid start byte"
  | .invalidContinuation => "invalid continuation byte"
  | .unexpectedEnd => "unexpected end of data"

/-- The first octets of a text that are no character: `count` of them from
    position `first` on, the first of which is `octet`. -/
structure Fault where
  first : Nat
  count : Nat
  octet : UInt8
  reason : Reason
deriving Repr, DecidableEq

/-- A character of which some octets are still due. -/
structure Pending where
  /-- The first octet of the character. -/
  lead : UInt8
  /-- How many octets have been read. -/
  read : Nat
  /-- The bits read so far. -/
  bits : Nat
  /-- How many octets are due after the next one. -/
  after : Nat
  /-- The least value of the next octet. -/
  low : UInt8
  /-- The greatest value of the next octet. -/
  high : UInt8
deriving Repr, DecidableEq

/-- What the first octet of a character tells: the whole character, or how it
    goes on; nothing if no character begins with it. -/
def begin? (b : UInt8) : Option (Char ⊕ Pending) :=
  if b < 0x80 then some (.inl (Char.ofNat b.toNat))
  else if b < 0xC2 then none
  else if b < 0xE0 then some (.inr ⟨b, 1, b.toNat - 0xC0, 0, 0x80, 0xBF⟩)
  else if b < 0xF0 then
    some (.inr ⟨b, 1, b.toNat - 0xE0, 1, if b = 0xE0 then 0xA0 else 0x80,
      if b = 0xED then 0x9F else 0xBF⟩)
  else if b < 0xF5 then
    some (.inr ⟨b, 1, b.toNat - 0xF0, 2, if b = 0xF0 then 0x90 else 0x80,
      if b = 0xF4 then 0x8F else 0xBF⟩)
  else none

/-- What the next octet of a character tells: the whole character, or how it
    goes on; nothing if the character does not continue with it. -/
def Pending.next? (p : Pending) (b : UInt8) : Option (Char ⊕ Pending) :=
  if p.low ≤ b ∧ b ≤ p.high then
    let bits := p.bits * 64 + (b.toNat - 0x80)
    match p.after with
    | 0 => some (.inl (Char.ofNat bits))
    | after + 1 => some (.inr ⟨p.lead, p.read + 1, bits, after, 0x80, 0xBF⟩)
  else none

/-- Reads octets that start at position `pos`, with the character `pending`
    begun before them and the characters `done` read before that, last first. -/
def decodeFrom (pos : Nat) (pending : Option Pending) (done : List Char) :
    List UInt8 → Except Fault (List Char)
  | [] =>
    match pending with
    | none => .ok done.reverse
    | some p => .error ⟨pos - p.read, p.read, p.lead, .unexpectedEnd⟩
  | b :: rest =>
    match pending with
    | none =>
      match begin? b with
      | none => .error ⟨pos, 1, b, .invalidStart⟩
      | some (.inl c) => decodeFrom (pos + 1) none (c :: done) rest
      | some (.inr p) => decodeFrom (pos + 1) (some p) done rest
    | some p =>
      match p.next? b with
      | none => .error ⟨pos - p.read, p.read, p.lead, .invalidContinuation⟩
      | some (.inl c) => decodeFrom (pos + 1) none (c :: done) rest
      | some (.inr p) => decodeFrom (pos + 1) (some p) done rest

/-- The characters that some octets stand for, or the first fault in them. -/
def decode (octets : List UInt8) : Except Fault (List Char) :=
  decodeFrom 0 none [] octets

/-- The two hexadecimal digits of an octet. -/
def hexOctet (b : UInt8) : Text :=
  [Nat.digitChar (b.toNat / 16), Nat.digitChar (b.toNat % 16)]

/-- The wording of a fault. A single octet is shown, several are only located. -/
def Fault.message (f : Fault) : Text :=
  if f.count ≤ 1 then
    "'utf-8' codec can't decode byte 0x" ++ hexOctet f.octet ++ " in position " ++
      toString f.first ++ ": " ++ f.reason.message
  else
    "'utf-8' codec can't decode bytes in position " ++ toString f.first ++ "-" ++
      toString (f.first + f.count - 1) ++ ": " ++ f.reason.message

end KeyAudit.Text.Utf8
