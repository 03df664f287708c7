/-
The clock of a feed: what its readings give, and how often it has been read.  A clock that counts
seconds is read in whole milliseconds, cut toward zero, and fails when it shows an infinity or no
number.  What such a clock shows is multiplied by a thousand whatever it is, which for a text or
octets is to repeat them, and the product has to stand for a whole number.
-/
import LiveFeed.Text.Numeral
import LiveFeed.Value.Basic

namespace LiveFeed

namespace Clock

/-- Why a clock cannot be read. -/
inductive Fault where
  | infinite
  | notANumber
  /-- Values of this type cannot be multiplied. -/
  | noProduct (kind : Kind)
  /-- Values of this type stand for no numbers. -/
  | notNumeric (kind : Kind)
  /-- A text is no whole number. -/
  | malformed (fault : Numeral.Fault)
  /-- Octets are no whole number. -/
  | malformedOctets (octets : Bytes)
deriving Repr, DecidableEq

def Fault.message : Fault → String
  | .infinite => "cannot convert float infinity to integer"
  | .notANumber => "cannot convert float NaN to integer"
  | .noProduct kind => "unsupported operand type(s) for *: '" ++ kind.name ++ "' and 'int'"
  | .notNumeric kind =>
      "int() argument must be a string, a bytes-like object or a real number, not '" ++
        kind.name ++ "'"
  | .malformed fault => fault.message
  | .malformedOctets octets =>
      "invalid literal for int() with base 10: " ++
        String.ofList ((Quoted.bytes octets).toList.take 200)

/-- How many milliseconds a second has. -/
def millisPerSecond : Nat := 1000

/-- A number of seconds in whole milliseconds. -/
def millisOf : Number → Except Fault Int
  | .whole n => .ok (n * millisPerSecond)
  | .float x =>
      match Binary64.read (x * Float.ofNat millisPerSecond) with
      | .finite negative mantissa exponent => .ok (Binary64.truncated negative mantissa exponent)
      | .infinite _ => .error .infinite
      | .nan => .error .notANumber

/-- The whole number that repeated octets stand for. -/
def ofOctets (octets : Bytes) : Except Fault Int :=
  let isAscii := octets.all fun b => b.toNat < 128
  match Numeral.readInt 10 (.ofChars (octets.map fun b => Char.ofNat b.toNat)) with
  | .ok n => if isAscii then .ok n else .error (.malformedOctets octets)
  | .error (.tooLong digits) => .error (.malformed (.tooLong digits))
  | .error _ => .error (.malformedOctets octets)

/-- What a clock that counts seconds shows in whole milliseconds. -/
def millis (face : Value) : Except Fault Int :=
  match face.number?, face.repeated? millisPerSecond with
  | some seconds, _ => millisOf seconds
  | none, some (.str text) => (Numeral.readInt 10 text).mapError .malformed
  | none, some (.bytes _ octets) => ofOctets octets
  | none, some v => .error (.notNumeric v.kind)
  | none, none => .error (if face.kind = .span then .notNumeric .span else .noProduct face.kind)

/-- Whether a reading is refused for its value, not for its type or size. -/
def Fault.isOfValue : Fault → Bool
  | .notANumber | .malformed _ | .malformedOctets _ => true
  | .infinite | .noProduct _ | .notNumeric _ => false

end Clock

/-- A clock.  One that has been set to a time stands still until it is set again. -/
structure Clock where
  /-- What the reading of each number gives. -/
  face : Nat → Except Clock.Fault Value
  reads : Nat

namespace Clock

def showing (now : Value) : Clock := ⟨fun _ => .ok now, 0⟩

/-- A clock that shows a number of seconds in milliseconds. -/
def ofSeconds (seconds : Value) : Clock := ⟨fun _ => (millis seconds).map .int, 0⟩

/-- The same clock set to another number of seconds. -/
def setSeconds (clock : Clock) (seconds : Value) : Clock :=
  { clock with face := fun _ => (millis seconds).map .int }

/-- Reads the clock, which is counted whether it succeeds or not. -/
def read (clock : Clock) : Except Fault Value × Clock :=
  (clock.face clock.reads, { clock with reads := clock.reads + 1 })

end Clock
end LiveFeed
