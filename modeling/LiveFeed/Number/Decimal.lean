/-
Decimal text of floating point numbers: the fewest digits that read back, and a fixed number of
places.  Main definitions: `Decimal.shortest`, which searches the decimal grids from the coarsest
one on, and `FloatText.plain`, the spelling used wherever a number is shown.
-/
import LiveFeed.Number.Binary64

namespace LiveFeed

/-- The positive number `digits * 10 ^ exponent`. -/
structure Decimal where
  digits : Nat
  exponent : Int
deriving Repr, DecidableEq

namespace Decimal

/-- The reals that round to `mantissa * 2 ^ exponent`: both ends and the number itself, in quarters
of its unit, and whether the ends belong to them. -/
structure Interval where
  low : Nat
  middle : Nat
  high : Nat
  closed : Bool
  /-- The exponent of the quarter unit. -/
  exponent : Int
deriving Repr

/-- Half a unit on either side; only a quarter below a power of two, where the grid gets finer. -/
def Interval.around (mantissa : Nat) (exponent : Int) : Interval :=
  let below := if mantissa = Nat.pow 2 52 ∧ Binary64.leastExponent < exponent then 1 else 2
  { low := 4 * mantissa - below
    middle := 4 * mantissa
    high := 4 * mantissa + 2
    closed := mantissa % 2 == 0
    exponent := exponent - 2 }

/-- Whether `digits * 10 ^ exponent` is in the interval. -/
def Interval.contains (i : Interval) (d : Decimal) : Bool :=
  let scale := Nat.pow 10 d.exponent.toNat * Nat.pow 2 (-i.exponent).toNat
  let unit := Nat.pow 2 i.exponent.toNat * Nat.pow 10 (-d.exponent).toNat
  let point := d.digits * scale
  if i.closed then i.low * unit ≤ point && point ≤ i.high * unit
  else i.low * unit < point && point < i.high * unit

/-- The middle of the interval in units of `10 ^ exponent`, as a ratio. -/
def Interval.middleIn (i : Interval) (exponent : Int) : Nat × Nat :=
  (i.middle * Nat.pow 2 i.exponent.toNat * Nat.pow 10 (-exponent).toNat,
    Nat.pow 10 exponent.toNat * Nat.pow 2 (-i.exponent).toNat)

/-- The place of the leading digit of a positive number: the largest `e` with `10 ^ e` not above. -/
def Interval.leadingPlace (i : Interval) : Int :=
  let estimate := ((Nat.log2 i.middle : Int) + i.exponent) * 30103 / 100000
  let atLeast (e : Int) : Bool := let (t, b) := i.middleIn e; b ≤ t
  if atLeast (estimate + 1) then estimate + 1
  else if atLeast estimate then estimate
  else estimate - 1

/-- The better of the two neighbours of the middle on one decimal grid, if one of them is in the
interval: the nearer one when both are, the even one when they are equally near. -/
def Interval.onGrid? (i : Interval) (exponent : Int) : Option Decimal :=
  let (t, b) := i.middleIn exponent
  let lower : Decimal := ⟨t / b, exponent⟩
  let upper : Decimal := ⟨t / b + 1, exponent⟩
  match i.contains lower, i.contains upper with
  | true, true => some ⟨roundHalfEven t b, exponent⟩
  | true, false => some lower
  | false, true => some upper
  | false, false => none

/-- Tries the grids from the place `exponent` downward, `count` of them. -/
def Interval.firstOnGrid? (i : Interval) : Nat → Int → Option Decimal
  | 0, _ => none
  | count + 1, exponent =>
      match i.onGrid? exponent with
      | some d => some d
      | none => i.firstOnGrid? count (exponent - 1)

/-- The decimal with the fewest digits among those that read back as `mantissa * 2 ^ exponent`.
Seventeen digits always suffice. -/
def shortest (mantissa : Nat) (exponent : Int) : Decimal :=
  let i := Interval.around mantissa exponent
  match i.firstOnGrid? 17 i.leadingPlace with
  | some d => d
  | none => ⟨mantissa * Nat.pow 2 exponent.toNat, 0⟩

end Decimal

namespace FloatText

/-- The leading minus of a negative number. -/
def sign (negative : Bool) : String := if negative then "-" else ""

/-- The exponent part: a sign and at least two digits. -/
def exponentPart (e : Int) : String :=
  let digits := toString e.natAbs
  "e" ++ (if e < 0 then "-" else "+") ++ (if digits.length < 2 then "0" ++ digits else digits)

/-- The significant digits of a decimal, without zeros at their end. -/
def significant (d : Decimal) : List Char :=
  ((Nat.toDigits 10 d.digits).reverse.dropWhile (· = '0')).reverse

/-- Digits with a point after the first `places` of them: positional for numbers from `0.0001` to
below `10 ^ 16`, else with an exponent. -/
def layout (d : Decimal) : String :=
  let places : Int := (Nat.toDigits 10 d.digits).length + d.exponent
  let digits := significant d
  if places ≤ -4 ∨ 16 < places then
    let rest := digits.drop 1
    String.ofList (digits.take 1) ++ (if rest.isEmpty then "" else "." ++ String.ofList rest)
      ++ exponentPart (places - 1)
  else if places ≤ 0 then
    "0." ++ String.ofList (List.replicate (-places).toNat '0' ++ digits)
  else
    let whole := digits.take places.toNat
    let rest := digits.drop places.toNat
    String.ofList (whole ++ List.replicate (places.toNat - whole.length) '0') ++ "."
      ++ (if rest.isEmpty then "0" else String.ofList rest)

/-- The shortest text that reads back as the same number. -/
def plain (x : Float) : String :=
  match Binary64.read x with
  | .nan => "nan"
  | .infinite negative => sign negative ++ "inf"
  | .finite negative 0 _ => sign negative ++ "0.0"
  | .finite negative mantissa exponent =>
      sign negative ++ layout (Decimal.shortest mantissa exponent)

/-- A whole number of hundredths with a point before the last two digits. -/
def hundredths (n : Nat) : String :=
  let cents := n % 100
  toString (n / 100) ++ "." ++ (if cents < 10 then "0" else "") ++ toString cents

/-- Two places, from the exact value; a half goes to the even hundredth. -/
def twoPlaces (x : Float) : String :=
  match Binary64.read x with
  | .nan => "nan"
  | .infinite negative => sign negative ++ "inf"
  | .finite negative mantissa exponent =>
      let (t, b) := Binary64.inUnits mantissa 1 (-exponent)
      sign negative ++ hundredths (roundHalfEven (100 * t) b)

end FloatText
end LiveFeed
