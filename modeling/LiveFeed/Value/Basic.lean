/-
The values that pass through a feed: timestamps and lifetimes of any type, requests, messages and
snapshots.  Equality is that of the documents: the three number types are compared as numbers, the
order of an object's fields does not count, and no value equals what is not a number.
-/
import LiveFeed.Calendar
import LiveFeed.Limits

namespace LiveFeed

/-- The three containers of octets: a fixed one, one that can grow, and a view of another one. -/
inductive Container where
  | fixed
  | growable
  | view
deriving Repr, DecidableEq

/-- A value of one of the types that timestamps, lifetimes and documents may have. -/
inductive Value where
  | null
  | bool (b : Bool)
  | int (n : Int)
  | float (x : Float)
  | str (t : Text)
  | list (items : List Value)
  | object (fields : List (Text × Value))
  | bytes (container : Container) (octets : Bytes)
  | instant (t : Instant)
  | span (s : Span)
deriving Repr, Inhabited

/-- The types of values. -/
inductive Kind where
  | null
  | bool
  | int
  | float
  | str
  | list
  | object
  | bytes (container : Container)
  | instant
  | span
deriving Repr, DecidableEq

namespace Kind

/-- The name of a type in messages. -/
def name : Kind → String
  | .null => "NoneType"
  | .bool => "bool"
  | .int => "int"
  | .float => "float"
  | .str => "str"
  | .list => "list"
  | .object => "dict"
  | .bytes .fixed => "bytes"
  | .bytes .growable => "bytearray"
  | .bytes .view => "memoryview"
  | .instant => "datetime.datetime"
  | .span => "datetime.timedelta"

/-- The name without the part before the point. -/
def shortName : Kind → String
  | .instant => "datetime"
  | .span => "timedelta"
  | kind => kind.name

end Kind

/-- A number of either type; truth values count as zero and one. -/
inductive Number where
  | whole (n : Int)
  | float (x : Float)
deriving Repr

namespace Number

/-- How two numbers compare, exactly; none when one of them is not a number at all. -/
def compare? : Number → Number → Option Ordering
  | .whole m, .whole n => some (compare m n)
  | .whole m, .float y => Binary64.compareInt m y
  | .float x, .whole n => (Binary64.compareInt n x).map Ordering.swap
  | .float x, .float y =>
      if x < y then some .lt else if y < x then some .gt else if x == y then some .eq else none

/-- A number as a float, unless it is whole and lies beyond the largest one. -/
def toFloat? : Number → Option Float
  | .whole n => Binary64.ofInt? n
  | .float x => some x

/-- Combines two numbers: exactly if both are whole, else as floats. -/
def combine? (whole : Int → Int → Int) (float : Float → Float → Float) :
    Number → Number → Option Number
  | .whole m, .whole n => some (.whole (whole m n))
  | m, n => do return .float (float (← m.toFloat?) (← n.toFloat?))

end Number

namespace Value

def kind : Value → Kind
  | .null => .null
  | .bool _ => .bool
  | .int _ => .int
  | .float _ => .float
  | .str _ => .str
  | .list _ => .list
  | .object _ => .object
  | .bytes container _ => .bytes container
  | .instant _ => .instant
  | .span _ => .span

def ofNumber : Number → Value
  | .whole n => .int n
  | .float x => .float x

def number? : Value → Option Number
  | .bool b => some (.whole (if b then 1 else 0))
  | .int n => some (.whole n)
  | .float x => some (.float x)
  | _ => none

def field? (fields : List (Text × Value)) (key : Text) : Option Value :=
  (fields.find? (·.1 = key)).map (·.2)

/-- The fields with one more: a key that is there keeps its place and takes the new value. -/
def put (fields : List (Text × Value)) (key : Text) (value : Value) : List (Text × Value) :=
  if fields.any (·.1 = key) then fields.map fun f => if f.1 = key then (key, value) else f
  else fields ++ [(key, value)]

/-- A text, a list or octets several times one after the other; other values cannot be repeated. -/
def repeated? (count : Nat) : Value → Option Value
  | .str t => some (.str ⟨(List.replicate count t.points).flatten⟩)
  | .list items => some (.list (List.replicate count items).flatten)
  | .bytes .view _ => none
  | .bytes container octets => some (.bytes container (List.replicate count octets).flatten)
  | _ => none

/-- Whether two values that are neither lists nor objects are equal. -/
def sameScalar (a b : Value) : Bool :=
  match a, b with
  | .null, .null => true
  | .str s, .str t => s == t
  | .bytes _ x, .bytes _ y => x == y
  | .instant s, .instant t => s == t
  | .span s, .span t => s == t
  | a, b =>
      match a.number?, b.number? with
      | some m, some n => m.compare? n == some .eq
      | _, _ => false

mutual

/-- Whether two values are equal. -/
def same : Value → Value → Bool
  | .list xs, .list ys => sameItems xs ys
  | .object fs, .object gs => fs.length == gs.length && sameFields fs gs
  | a, b => sameScalar a b

/-- Whether two lists are equal item by item.  Values have no identity: what is not a number differs
from itself also where two lists share it. -/
def sameItems : List Value → List Value → Bool
  | [], [] => true
  | x :: xs, y :: ys => same x y && sameItems xs ys
  | _, _ => false

/-- Whether every field of one object is a field of the other, with an equal value. -/
def sameFields : List (Text × Value) → List (Text × Value) → Bool
  | [], _ => true
  | (key, x) :: fs, gs =>
      (match field? gs key with
        | some y => same x y
        | none => false) && sameFields fs gs

end

/-- Why a value cannot be put in words. -/
inductive Wordless where
  /-- A whole number has too many digits. -/
  | tooLong
  /-- Values are nested too deeply. -/
  | tooDeep
deriving Repr, DecidableEq

def Wordless.message : Wordless → String
  | .tooLong => Digits.unwritten
  | .tooDeep => "maximum recursion depth exceeded while getting the repr of an object"

mutual

/-- What keeps a value from being put in words, if something does: of several reasons the one that
is met first.  Values may be nested up to `room` deep, and each takes its place, also one that holds
no others. -/
def wordlessWithin? (room : Nat) : Value → Option Wordless
  | .list items => if room = 0 then some .tooDeep else wordlessItems? (room - 1) items
  | .object fields => if room = 0 then some .tooDeep else wordlessFields? (room - 1) fields
  | .int n =>
      if room = 0 then some .tooDeep else if Digits.fit n then none else some .tooLong
  | _ => if room = 0 then some .tooDeep else none

/-- What keeps the first item from being put in words of which something does. -/
def wordlessItems? (room : Nat) : List Value → Option Wordless
  | [] => none
  | v :: rest => (wordlessWithin? room v).or (wordlessItems? room rest)

/-- The same for the values of an object; a key takes no more room than its value. -/
def wordlessFields? (room : Nat) : List (Text × Value) → Option Wordless
  | [] => none
  | (_, v) :: rest => (wordlessWithin? room v).or (wordlessFields? room rest)

end

/-- What keeps a value from being put in words, if something does. -/
def wordless? [Limits] (v : Value) : Option Wordless := wordlessWithin? Limits.wordDepth v

theorem wordDepth_ne_zero [Limits] : Limits.wordDepth ≠ 0 := by
  have hread := Limits.three_le_readDepth
  have hword := Limits.readDepth_le_wordDepth
  omega

@[simp] theorem wordless?_int [Limits] (n : Int) :
    wordless? (.int n) = if Digits.fit n then none else some .tooLong := by
  rw [wordless?, wordlessWithin?, if_neg wordDepth_ne_zero]

@[simp] theorem wordless?_null [Limits] : wordless? .null = none :=
  if_neg wordDepth_ne_zero

@[simp] theorem wordless?_bool [Limits] (b : Bool) : wordless? (.bool b) = none :=
  if_neg wordDepth_ne_zero

@[simp] theorem wordless?_float [Limits] (x : Float) : wordless? (.float x) = none :=
  if_neg wordDepth_ne_zero

@[simp] theorem wordless?_str [Limits] (t : Text) : wordless? (.str t) = none :=
  if_neg wordDepth_ne_zero

@[simp] theorem wordless?_instant [Limits] (t : Instant) : wordless? (.instant t) = none :=
  if_neg wordDepth_ne_zero

end Value
end LiveFeed
