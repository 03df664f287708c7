/-
Values written as JSON text, in ASCII: `, ` between items, `: ` after keys, everything else
escaped.  Octets, points and spans have no such text, nor have whole numbers with too many digits;
writing stops there, after what comes before them.  It also stops where values are nested more
deeply than they may be.
-/
import LiveFeed.Json.Reader
import LiveFeed.Number.Decimal
import LiveFeed.Text.Quoted

namespace LiveFeed.Json

/-- Why a value cannot be written. -/
inductive Unwritable where
  /-- Values of this type have no JSON text. -/
  | notJson (kind : Kind)
  /-- A whole number has too many digits. -/
  | tooLong
  /-- Values are nested too deeply. -/
  | tooDeep
deriving Repr, DecidableEq

/-- The wording for what cannot be written. -/
def Unwritable.message : Unwritable → String
  | .notJson kind => "Object of type " ++ kind.shortName ++ " is not JSON serializable"
  | .tooLong => Digits.unwritten
  | .tooDeep => "maximum recursion depth exceeded"

/-- What writing a value has produced, and what stopped it, if something did. -/
structure Written where
  chars : List Char
  stopped : Option Unwritable
deriving Repr, DecidableEq

namespace Written

/-- Characters that are written without fail. -/
def ofList (chars : List Char) : Written := ⟨chars, none⟩

/-- What is written after what has been written, unless that has stopped. -/
def followedBy (a b : Written) : Written :=
  match a.stopped with
  | some _ => a
  | none => ⟨a.chars ++ b.chars, b.stopped⟩

end Written

/-- A unit of sixteen bits as an escape. -/
def unitEscape (n : Nat) : List Char :=
  '\\' :: 'u' :: Quoted.hexDigits 4 n

/-- A code point between quotes: what is not printable ASCII is written as its one or two units. -/
def escape (p : CodePoint) : List Char :=
  match p with
  | .char '"' => ['\\', '"']
  | .char '\\' => ['\\', '\\']
  | .char '\n' => ['\\', 'n']
  | .char '\r' => ['\\', 'r']
  | .char '\t' => ['\\', 't']
  | .char '\x08' => ['\\', 'b']
  | .char '\x0c' => ['\\', 'f']
  | p =>
      let n := p.toNat
      if 32 ≤ n ∧ n < 127 then [Char.ofNat n]
      else (Units.ofCodePoint n).flatMap unitEscape

/-- A text between quotes. -/
def quote (t : Text) : List Char :=
  '"' :: t.points.flatMap escape ++ ['"']

/-- The digits of a whole number. -/
def intChars (n : Int) : List Char :=
  match n with
  | .ofNat n => Nat.toDigits 10 n
  | .negSucc n => '-' :: Nat.toDigits 10 (n + 1)

/-- The text of a float; what is not finite is written as a word. -/
def floatChars (x : Float) : List Char :=
  match Binary64.read x with
  | .nan => "NaN".toList
  | .infinite negative => (if negative then "-Infinity" else "Infinity").toList
  | .finite .. => (FloatText.plain x).toList

mutual

/-- Writes a value, inside which values may be nested up to `room` deep. -/
def writeWithin (room : Nat) : Value → Written
  | .null => .ofList "null".toList
  | .bool true => .ofList "true".toList
  | .bool false => .ofList "false".toList
  | .int n => if Digits.fit n then .ofList (intChars n) else ⟨[], some .tooLong⟩
  | .float x => .ofList (floatChars x)
  | .str t => .ofList (quote t)
  | .list items =>
      if room = 0 then ⟨[], some .tooDeep⟩
      else (Written.ofList ['[']).followedBy (writeItems (room - 1) items)
  | .object fields =>
      if room = 0 then ⟨[], some .tooDeep⟩
      else (Written.ofList ['\x7b']).followedBy (writeFields (room - 1) fields)
  | v => ⟨[], some (.notJson v.kind)⟩

/-- Writes the items of a list and the bracket that closes it. -/
def writeItems (room : Nat) : List Value → Written
  | [] => .ofList [']']
  | [v] => (writeWithin room v).followedBy (.ofList [']'])
  | v :: rest =>
      (writeWithin room v).followedBy
        ((Written.ofList [',', ' ']).followedBy (writeItems room rest))

/-- Writes the fields of an object and the brace that closes it. -/
def writeFields (room : Nat) : List (Text × Value) → Written
  | [] => .ofList ['\x7d']
  | [(key, v)] =>
      (Written.ofList (quote key ++ [':', ' '])).followedBy
        ((writeWithin room v).followedBy (.ofList ['\x7d']))
  | (key, v) :: rest =>
      (Written.ofList (quote key ++ [':', ' '])).followedBy
        ((writeWithin room v).followedBy
          ((Written.ofList [',', ' ']).followedBy (writeFields room rest)))

end

def write [Limits] (v : Value) : Written := writeWithin Limits.writeDepth v

def text? [Limits] (v : Value) : Except Unwritable String :=
  let written := write v
  match written.stopped with
  | some problem => .error problem
  | none => .ok (String.ofList written.chars)

end LiveFeed.Json
