/-
The values of YAML documents.  The keys of a mapping are values as well, and no two of them are
equal: the three kinds of numbers are compared as numbers.

A collection is known by the number of its node, since it can stand in several places and inside
itself.
-/
import LiveFeed.Value.Text
import LiveFeed.Yaml.Node

namespace LiveFeed.Yaml

/-- A point in time as it is written, and how far the time of its zone is ahead, if it has one. -/
structure Moment where
  written : Instant
  zone : Option Span
deriving Repr, DecidableEq

/-- A value of a document. -/
inductive Datum where
  | null
  | bool (b : Bool)
  | int (n : Int)
  | float (x : Float)
  /-- What is not a number.  It equals only itself: all that are written with the word for it are
  the same, and others are as many as there are nodes for them. -/
  | notANumber (source : Option Ref)
  | str (t : Text)
  | binary (octets : Bytes)
  | date (d : Date)
  | moment (m : Moment)
  | collection (r : Ref)
deriving Repr, Inhabited

/-- What a collection holds. -/
inductive Collection where
  | list (items : List Datum)
  | pairs (items : List (Datum × Datum))
  | set (keys : List Datum)
  | mapping (fields : List (Datum × Datum))
deriving Repr, Inhabited

namespace Moment

/-- Whether two points are the same one.  A point with a zone never equals one without. -/
def same (a b : Moment) : Bool :=
  match a.zone, b.zone with
  | none, none => a.written == b.written
  | some x, some y => (a.written.micros : Int) - x.micros == (b.written.micros : Int) - y.micros
  | _, _ => false

/-- How far the time of a zone is ahead: a sign, hours and minutes. -/
def zoneText (zone : Span) : String :=
  let minutes := zone.micros.natAbs / (60 * microsPerSecond)
  (if zone.micros < 0 then "-" else "+") ++ Date.padded 2 (minutes / 60) ++ ":" ++
    Date.padded 2 (minutes % 60)

/-- Date, time of day and zone. -/
def text (m : Moment) : String :=
  m.written.text ++ (match m.zone with
    | some zone => zoneText zone
    | none => "")

end Moment

namespace Datum

/-- A number, if the value is one; truth values count as zero and one. -/
def number? : Datum → Option Number
  | .bool b => (Value.bool b).number?
  | .int n => some (.whole n)
  | .float x => some (.float x)
  | _ => none

/-- The value of a float that stands at a node. -/
def ofFloat (r : Ref) (x : Float) : Datum := if x.isNaN then .notANumber (some r) else .float x

/-- Whether two keys are equal. -/
def sameKey (a b : Datum) : Bool :=
  match a, b with
  | .null, .null => true
  | .str s, .str t => s == t
  | .binary x, .binary y => x == y
  | .date d, .date e => d == e
  | .moment m, .moment n => m.same n
  | .notANumber r, .notANumber s => r == s
  | a, b =>
      match a.number?, b.number? with
      | some m, some n => m.compare? n == some .eq
      | _, _ => false

/-- Whether a value can be a key: collections cannot. -/
def isKey : Datum → Bool
  | .collection _ => false
  | _ => true

/-- The fields with one more: a key that is there keeps its place and takes the new value. -/
def put (fields : List (Datum × Datum)) (key value : Datum) : List (Datum × Datum) :=
  if fields.any (sameKey key ·.1) then
    fields.map fun f => if sameKey key f.1 then (f.1, value) else f
  else fields ++ [(key, value)]

def field? (fields : List (Datum × Datum)) (key : Text) : Option Datum :=
  (fields.find? (sameKey (.str key) ·.1)).map (·.2)

/-- The text of a key, unless it is a whole number that is too long to be written. -/
def keyText? : Datum → Option Text
  | .null => some Value.null.text
  | .bool b => some (Value.bool b).text
  | .int n => if Digits.fit n then some (Value.int n).text else none
  | .float x => some (Value.float x).text
  | .notANumber _ => some (Value.float (Binary64.nan false)).text
  | .str t => some t
  | .binary octets => some (Quoted.bytes octets)
  | .date d => some d.text
  | .moment m => some m.text
  | .collection _ => some ""

end Datum

def Collection.isEmpty : Collection → Bool
  | .list items => items.isEmpty
  | .pairs items => items.isEmpty
  | .set keys => keys.isEmpty
  | .mapping fields => fields.isEmpty

end LiveFeed.Yaml
