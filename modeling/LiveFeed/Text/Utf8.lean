/-
Octet strings read as UTF-8.  The reader goes through the octets one at a time and remembers the
character it is in; where it stops, it says which octets are at fault and in which of three ways.
-/
import LiveFeed.Text.Quoted

namespace LiveFeed.Utf8

/-- The three ways in which octets fail to be UTF-8. -/
inductive Reason where
  | invalidStart
  | invalidContinuation
  | unexpectedEnd
deriving Repr, DecidableEq

/-- The octets at fault: the position and value of the first one, and how many there are. -/
structure Fault where
  position : Nat
  first : UInt8
  count : Nat
  reason : Reason
deriving Repr, DecidableEq

def Reason.text : Reason → String
  | .invalidStart => "invalid start byte"
  | .invalidContinuation => "invalid continuation byte"
  | .unexpectedEnd => "unexpected end of data"

/-- The wording of a fault: a single octet is shown, several are named by their positions. -/
def Fault.message (f : Fault) : String :=
  "'utf-8' codec can't decode " ++
    (if f.count = 1 then
      "byte 0x" ++ String.ofList (Hex.pair f.first) ++ " in position " ++ toString f.position
    else
      "bytes in position " ++ toString f.position ++ "-" ++ toString (f.position + f.count - 1))
    ++ ": " ++ f.reason.text

/-- A character that has begun: where, with which octet, how many octets of it have been read, how
many are missing, the bounds of the next one, and the bits read so far. -/
structure Partial where
  position : Nat
  first : UInt8
  seen : Nat
  missing : Nat
  low : Nat
  high : Nat
  bits : Nat
deriving Repr

/-- The character that a first octet of several begins.  The bounds of the second octet leave out
overlong forms, surrogates and everything above the last code point. -/
def Partial.ofLead? (position : Nat) (b : UInt8) : Option Partial :=
  let n := b.toNat
  if n < 0xC2 then none
  else if n < 0xE0 then some ⟨position, b, 1, 1, 0x80, 0xBF, n - 0xC0⟩
  else if n < 0xF0 then
    some ⟨position, b, 1, 2, if n = 0xE0 then 0xA0 else 0x80, if n = 0xED then 0x9F else 0xBF,
      n - 0xE0⟩
  else if n < 0xF5 then
    some ⟨position, b, 1, 3, if n = 0xF0 then 0x90 else 0x80, if n = 0xF4 then 0x8F else 0xBF,
      n - 0xF0⟩
  else none

/-- The same character with one more octet read. -/
def Partial.push (p : Partial) (b : UInt8) : Partial :=
  { p with
    seen := p.seen + 1
    missing := p.missing - 1
    low := 0x80
    high := 0xBF
    bits := 64 * p.bits + (b.toNat - 0x80) }

/-- The fault of a character that cannot be finished. -/
def Partial.fault (p : Partial) (reason : Reason) : Fault :=
  ⟨p.position, p.first, p.seen, reason⟩

/-- Reads the octets from the given position on, inside a character or between two.  The last
character may be incomplete. -/
def read : Nat → Option Partial → Bytes → Except Fault (List Char × Option Partial)
  | _, begun, [] => .ok ([], begun)
  | position, none, b :: rest =>
      if b.toNat < 0x80 then do
        let (cs, begun) ← read (position + 1) none rest
        return (Char.ofNat b.toNat :: cs, begun)
      else match Partial.ofLead? position b with
        | none => .error ⟨position, b, 1, .invalidStart⟩
        | some p => read (position + 1) (some p) rest
  | position, some p, b :: rest =>
      if p.low ≤ b.toNat ∧ b.toNat ≤ p.high then
        if p.missing ≤ 1 then do
          let (cs, begun) ← read (position + 1) none rest
          return (Char.ofNat (p.push b).bits :: cs, begun)
        else read (position + 1) (some (p.push b)) rest
      else .error (p.fault .invalidContinuation)

/-- The text that octets stand for. -/
def decode (bytes : Bytes) : Except Fault String := do
  match ← read 0 none bytes with
  | (cs, none) => return String.ofList cs
  | (_, some p) => throw (p.fault .unexpectedEnd)

/-- Whether a fault is that of the first two octets of a half of a pair at the end.  It shows only
when more octets follow. -/
def Fault.isHalfBegun (octets : Bytes) (f : Fault) : Bool :=
  f.reason == .invalidContinuation && f.first == 0xED && f.position + 2 == octets.length
    && octets.getLast?.any fun b => 0xA0 ≤ b.toNat && b.toNat ≤ 0xBF

/-- The characters of a part of a longer list of octets, and the octets of one that begins at the
end of the part.  Nothing may be left over when the list has ended. -/
def decodePart (ended : Bool) (octets : Bytes) : Except Fault (List Char × Bytes) :=
  match read 0 none octets with
  | .ok (cs, none) => .ok (cs, [])
  | .ok (cs, some p) =>
      if ended then .error (p.fault .unexpectedEnd) else .ok (cs, octets.drop p.position)
  | .error fault =>
      if ended || !fault.isHalfBegun octets then .error fault
      else (read 0 none (octets.take fault.position)).map fun part =>
        (part.1, octets.drop fault.position)

def encode (text : String) : Bytes :=
  text.toList.flatMap String.utf8EncodeChar

/-- Halves of surrogate pairs, which have no octets: the position of the first one of a text, and
how many of them follow each other there. -/
structure Unpaired where
  position : Nat
  first : CodePoint
  count : Nat
deriving Repr, DecidableEq

/-- The wording for halves: a single one is shown, several are named by their positions. -/
def Unpaired.message (u : Unpaired) : String :=
  "'utf-8' codec can't encode " ++
    (if u.count = 1 then
      "character '" ++ String.ofList (Quoted.numericEscape u.first.toNat) ++ "' in position " ++
        toString u.position
    else
      "characters in position " ++ toString u.position ++ "-" ++
        toString (u.position + u.count - 1))
    ++ ": surrogates not allowed"

/-- The first halves of a text that `isRefused` holds of, if there are any. -/
def unpaired? (isRefused : CodePoint → Bool) (text : Text) : Option Unpaired :=
  match text.points.dropWhile (!isRefused ·) with
  | [] => none
  | p :: rest =>
      some ⟨text.points.length - (rest.length + 1), p, 1 + (rest.takeWhile CodePoint.isHalf).length⟩

/-- The octets of a text, unless there are halves in it. -/
def encodeText (text : Text) : Except Unpaired Bytes :=
  match unpaired? CodePoint.isHalf text with
  | some fault => .error fault
  | none => .ok (encode (String.ofList text.chars))

end LiveFeed.Utf8
