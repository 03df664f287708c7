/-
Octet strings and their hexadecimal text.  Writing uses two lower-case digits for each octet and
nothing else; reading accepts both letter cases and ASCII blanks between octets, and names the
first character that stops it.
-/
import LiveFeed.Text.Basic

namespace LiveFeed

/-- A string of octets. -/
abbrev Bytes := List UInt8

namespace Hex

/-- The lower-case digit of a number below sixteen. -/
def digit (n : Nat) : Char :=
  Char.ofNat (if n < 10 then 48 + n else 87 + n)

/-- The two digits of an octet, the high one first. -/
def pair (b : UInt8) : List Char :=
  [digit (b.toNat / 16), digit (b.toNat % 16)]

/-- The digits of an octet string. -/
def digits (bytes : Bytes) : List Char :=
  bytes.flatMap pair

/-- The hexadecimal text of an octet string. -/
def encode (bytes : Bytes) : String :=
  String.ofList (digits bytes)

/-- The value of a digit of either letter case. -/
def value? (c : Char) : Option Nat :=
  if '0' ≤ c ∧ c ≤ '9' then some (c.toNat - 48)
  else if 'a' ≤ c ∧ c ≤ 'f' then some (c.toNat - 87)
  else if 'A' ≤ c ∧ c ≤ 'F' then some (c.toNat - 55)
  else none

/-- The six ASCII blanks that may stand between octets. -/
def isBlank (c : Char) : Bool :=
  c == ' ' || ('\t' ≤ c && c ≤ '\r')

/-- Reads octets from a text whose first character has the given position.  The error is the
position of the first character that is neither a blank between octets nor a digit in its place;
a text that ends inside an octet fails at its end. -/
def read : Nat → List Char → Except Nat Bytes
  | _, [] => .ok []
  | position, c :: rest =>
      if isBlank c then read (position + 1) rest
      else match value? c, rest with
        | none, _ => .error position
        | some _, [] => .error (position + 1)
        | some high, d :: rest =>
            match value? d with
            | none => .error (position + 1)
            | some low => do
                return UInt8.ofNat (16 * high + low) :: (← read (position + 2) rest)

/-- The octets that a text stands for, or the position at which it stops being hexadecimal: that of
the first character outside ASCII if there is one, wherever it stands. -/
def decode (text : Text) : Except Nat Bytes :=
  match text.chars.findIdx? (fun c => 128 ≤ c.toNat) with
  | some position => .error position
  | none => read 0 text.chars

end Hex
end LiveFeed
