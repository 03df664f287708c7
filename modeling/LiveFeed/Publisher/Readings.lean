/-
Made-up price readings: each feed walks at random, starting somewhere in an interval and changing by
a small part of itself from one reading to the next.  A price is whatever chance hands out, also
what cannot be computed with.
-/
import LiveFeed.Number.Decimal
import LiveFeed.Text.Utf8
import LiveFeed.Value.Basic

namespace LiveFeed

/-- What chance will hand out.  When nothing is left it hands out a fixed number. -/
structure Chance where
  uniform : List Value
  gauss : List Value
  choices : List Int
deriving Repr

namespace Chance

def drawUniform (c : Chance) : Value × Chance :=
  (c.uniform.headD (.float 100), { c with uniform := c.uniform.drop 1 })

/-- Draws from a bell curve. -/
def drawGauss (c : Chance) : Value × Chance :=
  (c.gauss.headD (.float 0), { c with gauss := c.gauss.drop 1 })

def drawChoice? (items : List Text) (c : Chance) : Option Text × Chance :=
  let index := (c.choices.headD 0).emod items.length
  (items[index.toNat]?, { c with choices := c.choices.drop 1 })

end Chance

/-- The last price of each feed. -/
abbrev Prices := List (Text × Value)

namespace Prices

/-- Why there is no reading. -/
inductive Fault where
  /-- A whole number lies beyond the largest float. -/
  | numberTooLarge
  /-- A change of this type cannot be added to a number. -/
  | noSum (change : Kind)
  /-- A price cannot be multiplied by a factor. -/
  | noProduct (price factor : Kind)
  /-- What can only be repeated is multiplied by a float. -/
  | notRepeatable
  /-- A span has become longer than this many days may be. -/
  | spanTooLong (days : Int)
  /-- A price of this type cannot be written with two places. -/
  | notWritable (price : Kind)
  /-- The name of the feed has no octets. -/
  | encoding (halves : Utf8.Unpaired)
deriving Repr, DecidableEq

def Fault.message : Fault → String
  | .numberTooLarge => "int too large to convert to float"
  | .noSum change => "unsupported operand type(s) for +: 'int' and '" ++ change.name ++ "'"
  | .noProduct price factor =>
      "unsupported operand type(s) for *=: '" ++ price.name ++ "' and '" ++ factor.name ++ "'"
  | .notRepeatable => "can't multiply sequence by non-int of type 'float'"
  | .spanTooLong days =>
      "days=" ++ toString days ++ "; must have magnitude <= " ++ toString Span.dayLimit
  | .notWritable .str => "Unknown format code 'f' for object of type 'str'"
  | .notWritable price => "unsupported format string passed to " ++ price.name ++ ".__format__"
  | .encoding halves => halves.message

/-- The bounds between which a feed starts. -/
def startLow : Nat := 10

/-- The bounds between which a feed starts. -/
def startHigh : Nat := 5000

def changeMean : Nat := 0

/-- How far changes are spread. -/
def changeDeviation : Float := 0.002

/-- The number by which a price is multiplied for a change by a part of itself. -/
def factorOf (change : Value) : Except Fault Number :=
  match change.number? with
  | none => .error (.noSum change.kind)
  | some change =>
      match (Number.whole 1).combine? (· + ·) (· + ·) change with
      | some factor => .ok factor
      | none => .error .numberTooLarge

/-- The microseconds of a span times a factor, rounded; a half goes to the even number. -/
def scaledMicros (micros : Int) : Number → Int
  | .whole n => micros * n
  | .float x =>
      match Binary64.read x with
      | .finite negative mantissa exponent =>
          let (top, bottom) := Binary64.inUnits (micros.natAbs * mantissa) 1 (-exponent)
          let size : Int := roundHalfEven top bottom
          if negative == decide (micros < 0) then size else -size
      | _ => 0

/-- A span times a factor. -/
def scaledSpan (s : Span) (factor : Number) : Except Fault Value :=
  let span : Span := ⟨scaledMicros s.micros factor⟩
  if span.inRange then .ok (.span span) else .error (.spanTooLong span.days)

/-- The price after a change by a part of itself. -/
def changed (price change : Value) : Except Fault Value := do
  let factor ← factorOf change
  match price, price.number? with
  | .span s, _ => scaledSpan s factor
  | _, some number =>
      match number.combine? (· * ·) (· * ·) factor with
      | some product => return .ofNumber product
      | none => throw .numberTooLarge
  | price, none =>
      match price.repeated? 1, factor with
      | none, factor => throw (.noProduct price.kind (Value.ofNumber factor).kind)
      | some _, .float _ => throw .notRepeatable
      | some price, .whole count => return (price.repeated? count.toNat).getD price

/-- A price with two places. -/
def text (price : Value) : Except Fault String :=
  match price.number? with
  | none => .error (.notWritable price.kind)
  | some number =>
      match number.toFloat? with
      | some x => .ok (FloatText.twoPlaces x)
      | none => .error .numberTooLarge

def reading (feed : Text) (price : Value) : Except Fault Bytes := do
  let price ← text price
  (Utf8.encodeText (feed ++ "=" ++ price)).mapError .encoding

/-- The next reading of a feed.  `start` is the price that a feed without one starts from. -/
def step (feed : Text) (start change : Value) : EStateM Fault Prices Bytes := fun prices =>
  match changed ((Value.field? prices feed).getD start) change with
  | .error fault => .error fault prices
  | .ok price =>
      let prices := Value.put prices feed price
      match reading feed price with
      | .error fault => .error fault prices
      | .ok octets => .ok octets prices

end Prices
end LiveFeed
