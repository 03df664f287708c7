/-
Sixty-four-bit floating point numbers read as exact dyadic numbers, and the number of that format
nearest to a ratio of whole numbers.  Everything that has to be exact (comparison with a whole
number, truncation, reading and writing decimals) goes through `Binary64.read` and
`Binary64.ofRatio` and so through whole numbers only.
-/
namespace LiveFeed

/-- The quotient of two whole numbers, rounded to the nearest one; a half goes to the even one. -/
def roundHalfEven (top bottom : Nat) : Nat :=
  let quotient := top / bottom
  let twice := 2 * (top % bottom)
  if twice < bottom then quotient
  else if bottom < twice then quotient + 1
  else quotient + quotient % 2

namespace Binary64

/-- What a bit pattern stands for: a signed `mantissa * 2 ^ exponent`, an infinity, or no number. -/
inductive Reading where
  | finite (negative : Bool) (mantissa : Nat) (exponent : Int)
  | infinite (negative : Bool)
  | nan
deriving Repr, DecidableEq

/-- The exponent of the finest grid of the format, that of the numbers below the normal range. -/
def leastExponent : Int := -1074

/-- Splits a bit pattern into its sign, exponent and mantissa. -/
def read (x : Float) : Reading :=
  let bits := x.toBits.toNat
  let negative := decide (bits / Nat.pow 2 63 = 1)
  let field : Nat := bits / Nat.pow 2 52 % Nat.pow 2 11
  let fraction : Nat := bits % Nat.pow 2 52
  if field = 2047 then
    if fraction = 0 then .infinite negative else .nan
  else if field = 0 then .finite negative fraction leastExponent
  else .finite negative (fraction + Nat.pow 2 52) ((field : Int) - 1075)

/-- The number whose sign bit is `negative` and whose other bits count `magnitude`. -/
def ofBits (negative : Bool) (magnitude : Nat) : Float :=
  Float.ofBits (UInt64.ofNat ((if negative then Nat.pow 2 63 else 0) + magnitude))

/-- The bits, but for the sign, of infinity; all finite numbers lie below. -/
def infinityBits : Nat := 2047 * Nat.pow 2 52

def infinity (negative : Bool) : Float := ofBits negative infinityBits

/-- What is no number, with the pattern that computing gives. -/
def nan (negative : Bool) : Float := ofBits negative (infinityBits + Nat.pow 2 51)

/-- Top and bottom of `top / bottom` measured in units of `2 ^ exponent`. -/
def inUnits (top bottom : Nat) (exponent : Int) : Nat × Nat :=
  (top * Nat.pow 2 (-exponent).toNat, bottom * Nat.pow 2 exponent.toNat)

/-- The exponent of the grid on which a positive ratio is rounded: the ratio counts less than
`2 ^ 53` of its units, and at least `2 ^ 52` unless the grid is the finest one. -/
def gridExponent (top bottom : Nat) : Int :=
  let estimate : Int := (Nat.log2 top : Int) - Nat.log2 bottom - 53
  let (t, b) := inUnits top bottom estimate
  max leastExponent (if t / b < Nat.pow 2 53 then estimate else estimate + 1)

/-- The bits of the number nearest to a ratio; a half goes to the even mantissa.  Consecutive
numbers have consecutive bits, so rounding up to the next grid needs no case of its own. -/
def ratioBits (top bottom : Nat) : Nat :=
  if top = 0 then 0 else
    let exponent := gridExponent top bottom
    let (t, b) := inUnits top bottom exponent
    min infinityBits ((exponent - leastExponent).toNat * Nat.pow 2 52 + roundHalfEven t b)

/-- The number nearest to a signed ratio, an infinity when it lies beyond the largest one. -/
def ofRatio (negative : Bool) (top bottom : Nat) : Float :=
  ofBits negative (ratioBits top bottom)

/-- The number nearest to the signed `digits * 10 ^ exponent`.  A decimal whose leading digit lies
far outside the range of the format is settled by that alone. -/
def ofDecimal (negative : Bool) (digits : Nat) (exponent : Int) : Float :=
  let places : Int := (Nat.toDigits 10 digits).length + exponent
  if digits = 0 ∨ places < -400 then ofBits negative 0
  else if 400 < places then infinity negative
  else ofRatio negative (digits * Nat.pow 10 exponent.toNat) (Nat.pow 10 (-exponent).toNat)

/-- The number nearest to a whole number, or none when it lies beyond the largest one. -/
def ofInt? (n : Int) : Option Float :=
  let bits := ratioBits n.natAbs 1
  if bits < infinityBits then some (ofBits (decide (n < 0)) bits) else none

/-- The whole part of a finite number, which is cut toward zero. -/
def truncated (negative : Bool) (mantissa : Nat) (exponent : Int) : Int :=
  let (t, b) := inUnits mantissa 1 (-exponent)
  if negative then -(t / b : Nat) else (t / b : Nat)

/-- How a whole number compares with a float, exactly; none when the float is no number. -/
def compareInt (n : Int) (x : Float) : Option Ordering :=
  match read x with
  | .nan => none
  | .infinite negative => some (if negative then .gt else .lt)
  | .finite negative mantissa exponent =>
      let (t, b) := inUnits mantissa 1 (-exponent)
      some (compare (n * b) (if negative then -(t : Int) else t))

end Binary64
end LiveFeed
