/-
Order and difference of values.  Both are partial: numbers, texts, lists, octets, points and spans
can be compared each among themselves, and only numbers, points and spans have differences; a
comparison with what is not a number never holds.
-/
import LiveFeed.Value.Basic

namespace LiveFeed.Value

/-- The comparisons that a log makes. -/
inductive Comparison where
  | less
  | greater
  | atLeast
deriving Repr, DecidableEq

namespace Comparison

def symbol : Comparison → String
  | .less => "<"
  | .greater => ">"
  | .atLeast => ">="

/-- Whether a comparison holds of two values that compare so; without an order none does. -/
def holds : Comparison → Option Ordering → Bool
  | .less, some .lt => true
  | .greater, some .gt => true
  | .atLeast, some .gt => true
  | .atLeast, some .eq => true
  | _, _ => false

end Comparison

/-- Why two values have no order or no difference. -/
inductive Fault where
  | unordered (op : Comparison) (left right : Kind)
  | noDifference (left right : Kind)
  | numberTooLarge
  | instantOutOfRange
  | spanOutOfRange (days : Int)
deriving Repr, DecidableEq

def Fault.message : Fault → String
  | .unordered op left right =>
      "'" ++ op.symbol ++ "' not supported between instances of '" ++ left.name ++ "' and '"
        ++ right.name ++ "'"
  | .noDifference left right =>
      "unsupported operand type(s) for -: '" ++ left.name ++ "' and '" ++ right.name ++ "'"
  | .numberTooLarge => "int too large to convert to float"
  | .instantOutOfRange => "date value out of range"
  | .spanOutOfRange days =>
      "days=" ++ toString days ++ "; must have magnitude <= " ++ toString Span.dayLimit

/-- The order of octet strings, and of strings of whatever can be compared: that of the first
difference, and of the lengths if there is none. -/
def compareOctets : Bytes → Bytes → Ordering
  | [], [] => .eq
  | [], _ :: _ => .lt
  | _ :: _, [] => .gt
  | x :: xs, y :: ys => if x < y then .lt else if y < x then .gt else compareOctets xs ys

/-- Whether two containers of octets can be compared: two fixed ones, or any with a growable one. -/
def Container.comparable (a b : Container) : Bool :=
  a = .growable || b = .growable || (a = .fixed && b = .fixed)

/-- The order of two values other than lists, if their types have one. -/
def compareScalar? (a b : Value) : Option (Option Ordering) :=
  match a, b with
  | .str s, .str t => some (some (compare s t))
  | .bytes c x, .bytes d y =>
      if Container.comparable c d then some (some (compareOctets x y)) else none
  | .instant s, .instant t => some (some (compare s.micros t.micros))
  | .span s, .span t => some (some (compare s.micros t.micros))
  | a, b =>
      match a.number?, b.number? with
      | some m, some n => some (m.compare? n)
      | _, _ => none

mutual

/-- Whether a comparison holds between two values. -/
def order (op : Comparison) : Value → Value → Except Fault Bool
  | .list xs, .list ys => orderItems op xs ys
  | a, b =>
      match compareScalar? a b with
      | some r => .ok (op.holds r)
      | none => .error (.unordered op a.kind b.kind)

/-- Whether a comparison holds between two lists: the first unequal items decide, or the lengths.  A
shared item that is not a number counts as unequal. -/
def orderItems (op : Comparison) : List Value → List Value → Except Fault Bool
  | [], ys => .ok (op.holds (some (compare 0 ys.length)))
  | xs, [] => .ok (op.holds (some (compare xs.length 0)))
  | x :: xs, y :: ys => if same x y then orderItems op xs ys else order op x y

end

/-- The difference of two numbers.  Between the two types the whole number is first turned into a
float, which fails when it lies beyond the largest one. -/
def subtractNumbers (m n : Number) : Except Fault Value :=
  match m.combine? (· - ·) (· - ·) n with
  | some difference => .ok (ofNumber difference)
  | none => .error .numberTooLarge

/-- A span within the limits. -/
def boundedSpan (micros : Int) : Except Fault Value :=
  let s : Span := ⟨micros⟩
  if s.inRange then .ok (.span s) else .error (.spanOutOfRange s.days)

/-- The difference of two values: of two numbers a number, of two points or of two spans a span, and
of a point and a span a point. -/
def subtract (a b : Value) : Except Fault Value :=
  match a, b with
  | .instant s, .instant t => .ok (.span ⟨(s.micros : Int) - t.micros⟩)
  | .instant s, .span t =>
      let micros := (s.micros : Int) - t.micros
      if Instant.inRange micros then .ok (.instant ⟨micros.toNat⟩) else .error .instantOutOfRange
  | .span s, .span t => boundedSpan (s.micros - t.micros)
  | a, b =>
      match a.number?, b.number? with
      | some m, some n => subtractNumbers m n
      | _, _ => .error (.noDifference a.kind b.kind)

end LiveFeed.Value
