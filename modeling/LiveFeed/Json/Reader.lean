/-
JSON text read as a value.  The reader goes through the characters once and keeps what is left, so
that a fault is a problem together with the number of characters that were left; line and column
are computed only for the fault that is reported.  Beyond the standard it takes `NaN`, `Infinity`
and `-Infinity` for numbers; of two fields with one key the first keeps its place and the last gives
the value.
-/
import LiveFeed.Text.Numeral
import LiveFeed.Value.Basic

namespace LiveFeed.Json

/-- What is wrong at a place in a text. -/
inductive Problem where
  | noValue
  | noKey
  | noColon
  | noComma
  | extraData
  | unterminated
  | controlCharacter
  | badEscape
  | badUnicodeEscape
  | byteOrderMark
deriving Repr, DecidableEq

def Problem.text : Problem → String
  | .noValue => "Expecting value"
  | .noKey => "Expecting property name enclosed in double quotes"
  | .noColon => "Expecting ':' delimiter"
  | .noComma => "Expecting ',' delimiter"
  | .extraData => "Extra data"
  | .unterminated => "Unterminated string starting at"
  | .controlCharacter => "Invalid control character at"
  | .badEscape => "Invalid \\escape"
  | .badUnicodeEscape => "Invalid \\uXXXX escape"
  | .byteOrderMark => "Unexpected UTF-8 BOM (decode using utf-8-sig)"

/-- The two kinds of values that hold others. -/
inductive Nest where
  | array
  | object
deriving Repr, DecidableEq

/-- The name of a kind in messages. -/
def Nest.name : Nest → String
  | .array => "array"
  | .object => "object"

/-- Why a text is not read: a problem and its place, a whole number with too many digits, or values
that are nested too deeply. -/
inductive Fault where
  | malformed (problem : Problem) (line column position : Nat)
  | tooLong (digits : Nat)
  | tooDeep (nest : Nest)
deriving Repr, DecidableEq

def Fault.message : Fault → String
  | .malformed problem line column position =>
      problem.text ++ ": line " ++ toString line ++ " column " ++ toString column ++ " (char "
        ++ toString position ++ ")"
  | .tooLong digits => Digits.unread digits
  | .tooDeep nest =>
      "maximum recursion depth exceeded while decoding a JSON " ++ nest.name ++
        " from a unicode string"

/-- Where reading stops: a problem and the characters from its place on, a number that is too long,
or a value that is one too deep. -/
inductive Stop where
  | problem (what : Problem) (left : List Char)
  | tooLong (digits : Nat)
  | tooDeep (nest : Nest)
deriving Repr, DecidableEq

/-- The fault of a stop within a text: lines and columns count from one, positions from zero. -/
def Stop.fault (all : List Char) : Stop → Fault
  | .problem what left =>
      let position := all.length - left.length
      let before := all.take position
      .malformed what (before.count '\n' + 1)
        ((before.reverse.takeWhile (· ≠ '\n')).length + 1) position
  | .tooLong digits => .tooLong digits
  | .tooDeep nest => .tooDeep nest

/-- The four blanks of the format. -/
def isBlank (c : Char) : Bool :=
  c == ' ' || c == '\t' || c == '\n' || c == '\r'

/-- What is left after the blanks. -/
def skip (cs : List Char) : List Char :=
  cs.dropWhile isBlank

/-- The character that a letter after a backslash stands for. -/
def escaped? : Char → Option Char
  | '"' => some '"'
  | '\\' => some '\\'
  | '/' => some '/'
  | 'b' => some '\x08'
  | 'f' => some '\x0c'
  | 'n' => some '\n'
  | 'r' => some '\r'
  | 't' => some '\t'
  | _ => none

/-- The number that four hexadecimal digits stand for. -/
def unit? (a b c d : Char) : Option Nat := do
  let a ← Hex.value? a
  let b ← Hex.value? b
  let c ← Hex.value? c
  let d ← Hex.value? d
  return ((a * 16 + b) * 16 + c) * 16 + d

/-- The code points and escaped units of a text up to its closing quote, and what is left.
`opening` is the text from its opening quote on. -/
def stringBody (opening : List Char) : List Char → Except Stop (List Nat × List Char)
  | [] => .error (.problem .unterminated opening)
  | '"' :: rest => .ok ([], rest)
  | ['\\'] => .error (.problem .unterminated opening)
  | '\\' :: 'u' :: a :: b :: c :: d :: rest =>
      match rest, unit? a b c d with
      | _ :: _, some n => do
          let (units, left) ← stringBody opening rest
          return (n :: units, left)
      | _, _ => .error (.problem .badUnicodeEscape ('u' :: a :: b :: c :: d :: rest))
  | '\\' :: 'u' :: rest => .error (.problem .badUnicodeEscape ('u' :: rest))
  | '\\' :: letter :: rest =>
      match escaped? letter with
      | none => .error (.problem .badEscape ('\\' :: letter :: rest))
      | some c => do
          let (units, left) ← stringBody opening rest
          return (c.toNat :: units, left)
  | c :: rest =>
      if c.toNat < 32 then .error (.problem .controlCharacter (c :: rest))
      else do
        let (units, left) ← stringBody opening rest
        return (c.toNat :: units, left)

/-- A text whose opening quote is the first of the given characters, and what is left. -/
def string (opening : List Char) : Except Stop (Text × List Char) := do
  let (units, left) ← stringBody opening (opening.drop 1)
  return (⟨Units.points units⟩, left)

/-- The digits after a point, which must be there to count as a fraction. -/
def fraction (cs : List Char) : List Char × List Char :=
  match cs with
  | '.' :: rest =>
      let digits := rest.takeWhile Char.isDigit
      if digits.isEmpty then ([], cs) else (digits, rest.dropWhile Char.isDigit)
  | _ => ([], cs)

/-- The exponent after an `e`, if a digit follows. -/
def exponent? (cs : List Char) : Option (Int × List Char) :=
  match cs with
  | e :: rest =>
      let (negative, rest) := Numeral.splitSign rest
      let digits := rest.takeWhile Char.isDigit
      if (e = 'e' ∨ e = 'E') ∧ !digits.isEmpty then
        let n := Nat.ofDigitChars 10 digits 0
        some (if negative then -(n : Int) else n, rest.dropWhile Char.isDigit)
      else none
  | [] => none

/-- The digits of the whole part: a zero alone, or digits that begin with another one. -/
def wholePart (cs : List Char) : List Char × List Char :=
  match cs with
  | '0' :: rest => (['0'], rest)
  | cs => (cs.takeWhile Char.isDigit, cs.dropWhile Char.isDigit)

/-- A number: a whole one unless a fraction or an exponent follows. -/
def number (cs : List Char) : Except Stop (Value × List Char) :=
  let (negative, rest) := match cs with
    | '-' :: rest => (true, rest)
    | cs => (false, cs)
  let (whole, rest) := wholePart rest
  if whole.isEmpty then .error (.problem .noValue cs)
  else
    let (part, rest) := fraction rest
    let float (e : Int) : Value :=
      .float (Binary64.ofDecimal negative (Nat.ofDigitChars 10 (whole ++ part) 0) (e - part.length))
    match exponent? rest with
    | some (e, rest) => .ok (float e, rest)
    | none =>
        if !part.isEmpty then .ok (float 0, rest)
        else if Digits.limit < whole.length then .error (.tooLong whole.length)
        else
          let n : Int := Nat.ofDigitChars 10 whole 0
          .ok (.int (if negative then -n else n), rest)

/-- What is left after a word that stands at the beginning. -/
def after? : List Char → List Char → Option (List Char)
  | [], cs => some cs
  | w :: ws, c :: cs => if w = c then after? ws cs else none
  | _ :: _, [] => none

/-- The words that stand for values. -/
def words : List (List Char × Value) := [
  ("null".toList, .null),
  ("true".toList, .bool true),
  ("false".toList, .bool false),
  ("NaN".toList, .float (Binary64.nan false)),
  ("Infinity".toList, .float (Binary64.infinity false)),
  ("-Infinity".toList, .float (Binary64.infinity true))]

/-- The value of a word at the beginning, and what is left. -/
def word? (cs : List Char) : Option (Value × List Char) :=
  words.findSome? fun (word, v) => (after? word cs).map fun left => (v, left)

mutual

/-- Reads one value at the beginning of a text, inside which values may be nested up to `room` deep.
Of two steps one takes at least one character, so twice the length of the text is enough fuel. -/
def value : Nat → Nat → List Char → Except Stop (Value × List Char)
  | 0, _, cs => .error (.problem .noValue cs)
  | fuel + 1, room, cs =>
      match cs with
      | '"' :: _ => do
          let (text, left) ← string cs
          return (.str text, left)
      | '\x7b' :: rest =>
          match room with
          | 0 => .error (.tooDeep .object)
          | room + 1 =>
              match skip rest with
              | '\x7d' :: left => .ok (.object [], left)
              | rest => fields fuel room [] rest
      | '[' :: rest =>
          match room with
          | 0 => .error (.tooDeep .array)
          | room + 1 =>
              match skip rest with
              | ']' :: left => .ok (.list [], left)
              | rest => items fuel room rest
      | cs =>
          match word? cs with
          | some found => .ok found
          | none => number cs

/-- Reads the items of a list from its first or next item on. -/
def items : Nat → Nat → List Char → Except Stop (Value × List Char)
  | 0, _, cs => .error (.problem .noValue cs)
  | fuel + 1, room, cs => do
      let (v, rest) ← value fuel room cs
      match skip rest with
      | ']' :: left => return (.list [v], left)
      | ',' :: rest =>
          match ← items fuel room (skip rest) with
          | (.list more, left) => return (.list (v :: more), left)
          | (_, left) => return (.list [v], left)
      | left => .error (.problem .noComma left)

/-- Reads the fields of an object from its first or next key on, after those already read. -/
def fields : Nat → Nat → List (Text × Value) → List Char → Except Stop (Value × List Char)
  | 0, _, _, cs => .error (.problem .noKey cs)
  | fuel + 1, room, known, cs =>
      match cs with
      | '"' :: _ => do
          let (key, rest) ← string cs
          match skip rest with
          | ':' :: rest =>
              let (v, rest) ← value fuel room (skip rest)
              let known := Value.put known key v
              match skip rest with
              | '\x7d' :: left => return (.object known, left)
              | ',' :: rest => fields fuel room known (skip rest)
              | left => .error (.problem .noComma left)
          | left => .error (.problem .noColon left)
      | left => .error (.problem .noKey left)

end

/-- Reads a whole text: one value, inside which values may be nested up to `room` deep, with nothing
but blanks around it. -/
def readChars (room : Nat) (cs : List Char) : Except Stop Value :=
  match cs with
  | '\uFEFF' :: _ => .error (.problem .byteOrderMark cs)
  | cs => do
      let (v, rest) ← value (2 * cs.length + 1) room (skip cs)
      match skip rest with
      | [] => return v
      | left => .error (.problem .extraData left)

/-- The value that a text stands for, as deep as it may be nested. -/
def read [Limits] (text : String) : Except Fault Value :=
  (readChars Limits.readDepth text.toList).mapError (·.fault text.toList)

end LiveFeed.Json
