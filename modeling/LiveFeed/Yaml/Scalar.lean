/-
Scalars read as values of the type they are tagged with.
-/
import LiveFeed.Text.Casing
import LiveFeed.Yaml.Datum

namespace LiveFeed.Yaml.Scalar

/-- A sign and what follows it, without underscores; a text that holds nothing else is refused. -/
def splitSign (text : Text) : Except Fault (Bool × Text) :=
  match text.points.filter (· != .char '_') with
  | [] => .error .emptyNumber
  | .char '-' :: rest => .ok (true, ⟨rest⟩)
  | .char '+' :: rest => .ok (false, ⟨rest⟩)
  | points => .ok (false, ⟨points⟩)

/-- A whole number in a base. -/
def digits (base : Nat) (text : Text) : Except Fault Int :=
  (Numeral.readInt base text).mapError .notInt

/-- A whole number without its sign.  A leading zero means base eight, colons mean base sixty. -/
def magnitude (text : Text) : Except Fault Int :=
  match text.points with
  | [] => .error .emptyNumber
  | [.char '0'] => .ok 0
  | .char '0' :: .char 'b' :: rest => digits 2 ⟨rest⟩
  | .char '0' :: .char 'x' :: rest => digits 16 ⟨rest⟩
  | .char '0' :: _ => digits 8 text
  | points => do
      if points.contains (.char ':') then
        let parts ← (text.split ':').mapM (digits 10)
        return parts.foldl (fun n part => 60 * n + part) 0
      else digits 10 text

/-- A whole number. -/
def int (text : Text) : Except Fault Int := do
  let (negative, rest) ← splitSign text
  let n ← magnitude rest
  return if negative then -n else n

def decimal (text : Text) : Except Fault Float :=
  match Numeral.readFloat? text with
  | some x => .ok x
  | none => .error (.notFloat text)

/-- The sum of parts in base sixty, from the last part on; `base` is the weight of the first one. -/
def sixtieths : Float → Nat → List Float → Except Fault Float
  | sum, _, [] => .ok sum
  | sum, base, part :: rest =>
      match Binary64.ofInt? base with
      | some weight => sixtieths (sum + part * weight) (60 * base) rest
      | none => .error .baseTooLarge

/-- A floating point number that stands at a node. -/
def float (r : Ref) (text : Text) : Except Fault Datum := do
  let (negative, rest) ← splitSign text
  let rest := Casing.lower rest
  if rest == Text.ofString ".nan" then return .notANumber none
  else
    let x ←
      if rest == Text.ofString ".inf" then pure (Binary64.infinity false)
      else if rest.points.contains (.char ':') then do
        let parts ← (rest.split ':').mapM decimal
        sixtieths 0 1 parts.reverse
      else decimal rest
    return .ofFloat r (if negative then -x else x)

/-- A truth value. -/
def bool (text : Text) : Except Fault Bool :=
  let word := Casing.lower text
  if (["yes", "true", "on"].map Text.ofString).contains word then .ok true
  else if (["no", "false", "off"].map Text.ofString).contains word then .ok false
  else .error (.notBool word)

/-- The six bits that a character of base 64 stands for. -/
def sixBits? (c : Char) : Option Nat :=
  if 'A' ≤ c ∧ c ≤ 'Z' then some (c.toNat - 65)
  else if 'a' ≤ c ∧ c ≤ 'z' then some (c.toNat - 71)
  else if c.isDigit then some (c.toNat + 4)
  else if c == '+' then some 62
  else if c == '/' then some 63
  else none

/-- Octets in base 64 from a place in a group of four characters on.  `carried` are the bits of the
group that are not yet part of an octet, and `pads` counts the padding read last.  Other characters
are passed over; a group that is not complete must be padded. -/
def base64 : Nat → Nat → Nat → List Char → Option Bytes
  | place, _, _, [] => if place == 0 then some [] else none
  | place, carried, pads, c :: rest =>
      if c == '=' then
        if 2 ≤ place && 4 ≤ place + pads + 1 then some []
        else base64 place carried (if 2 ≤ place then pads + 1 else pads) rest
      else match sixBits? c with
        | none => base64 place carried pads rest
        | some bits =>
            match place with
            | 0 => base64 1 bits 0 rest
            | 1 => (base64 2 (bits % 16) 0 rest).map (UInt8.ofNat (4 * carried + bits / 16) :: ·)
            | 2 => (base64 3 (bits % 4) 0 rest).map (UInt8.ofNat (16 * carried + bits / 4) :: ·)
            | _ => (base64 0 0 0 rest).map (UInt8.ofNat (64 * carried + bits) :: ·)

def binary (text : Text) : Except Fault Bytes :=
  if text.chars.any fun c => 128 ≤ c.toNat then .error .malformed
  else match base64 0 0 0 text.chars with
    | some octets => .ok octets
    | none => .error .malformed

/-- A number of digits. -/
def count (cs : List Char) : Nat := Nat.ofDigitChars 10 cs 0

/-- A part of a point in time, which must be in its range. -/
def part (fault : DatePart) (least most n : Nat) : Except Fault Nat :=
  if least ≤ n ∧ n ≤ most then .ok n else .error (.datePart fault)

def date (t : TimestampText) : Except Fault Date := do
  let year ← part (.year (count t.year)) 1 9999 (count t.year)
  let month ← part .month 1 12 (count t.month)
  let day ← part .day 1 (Date.daysInMonth year month) (count t.day)
  return ⟨year, month, day⟩

/-- How far the time of a zone is ahead, which must be less than a day. -/
def zone (z : Zone) : Except Fault (Option Span) :=
  match z with
  | .none => .ok none
  | .utc => .ok (some ⟨0⟩)
  | .offset negative hour minute =>
      let seconds : Int := 60 * (60 * count hour + count minute)
      let ahead := Span.ofParts 0 (if negative then -seconds else seconds) 0
      if seconds < 86400 then .ok (some ahead) else .error (.zoneOffset ahead)

/-- The microseconds of a fraction of a second, of which six digits count. -/
def micros (fraction : List Char) : Nat :=
  count ((fraction ++ List.replicate 6 '0').take 6)

/-- A date, or a point in time. -/
def timestamp (text : Text) : Except Fault Datum :=
  match TimestampText.ofText? (Tag.withoutLineFeed text.chars) with
  | none => .error .notTimestamp
  | some t =>
      match t.time with
      | none => return .date (← date t)
      | some (hour, minute, second, fraction) => do
          let ahead ← zone t.zone
          let day ← date t
          let hour ← part .hour 0 23 (count hour)
          let minute ← part .minute 0 59 (count minute)
          let second ← part .second 0 59 (count second)
          return .moment ⟨Instant.ofParts day hour minute second (micros fraction), ahead⟩

/-- The value of a scalar of a type, which stands at a node; collections have no scalars. -/
def read (r : Ref) (tag : Tag) (text : Text) : Except Fault Datum :=
  match tag with
  | .null => .ok .null
  | .bool => return .bool (← bool text)
  | .int => return .int (← int text)
  | .float => float r text
  | .binary => return .binary (← binary text)
  | .timestamp => timestamp text
  | .str => .ok (.str text)
  | _ => .error .malformed

end LiveFeed.Yaml.Scalar
