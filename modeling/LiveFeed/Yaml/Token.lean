/-
The tokens of YAML 1.1 and the faults of a document.
-/
import LiveFeed.Calendar
import LiveFeed.Text.Numeral
import LiveFeed.Text.Utf8

namespace LiveFeed.Yaml

/-- What a directive says. -/
inductive Directive where
  | version (major : Nat)
  /-- What a tag handle stands for. -/
  | handle (name meaning : String)
  | other
deriving Repr, DecidableEq

/-- A token.  Those of block structure stand for changes of indentation. -/
inductive Token where
  | directive (content : Directive)
  | documentStart
  | documentEnd
  | streamEnd
  | blockSequenceStart
  | blockMappingStart
  | blockEnd
  | flowSequenceStart
  | flowSequenceEnd
  | flowMappingStart
  | flowMappingEnd
  | blockEntry
  | flowEntry
  | key
  | value
  | alias (name : String)
  | anchor (name : String)
  | tag (handle : Option String) (suffix : String)
  | scalar (text : Text) (plain : Bool)
deriving Repr, DecidableEq

/-- The parts of a point in time that may be out of their range. -/
inductive DatePart where
  | year (n : Nat)
  | month
  | day
  | hour
  | minute
  | second
deriving Repr, DecidableEq

/-- Why a document has no value. -/
inductive Fault where
  /-- The text breaks a rule of the language. -/
  | malformed
  /-- The octets of the file are no text. -/
  | encoding (fault : Utf8.Fault)
  /-- An escape names no code point. -/
  | noCodePoint
  | codePointTooLarge
  /-- A scalar is tagged as a whole number and is none. -/
  | notInt (fault : Numeral.Fault)
  | notFloat (text : Text)
  | emptyNumber
  /-- So many parts of a number in base sixty that the weight of the first one has no float. -/
  | baseTooLarge
  | notBool (text : Text)
  | notTimestamp
  /-- A mapping is tagged as a timestamp. -/
  | timestampMapping
  | datePart (part : DatePart)
  | zoneOffset (offset : Span)
  /-- Collections stand in each other too deep, or a value is sought inside itself. -/
  | tooDeep
deriving Repr, DecidableEq

/-- The wording of a part that is out of range. -/
def DatePart.message : DatePart → String
  | .year n => "year " ++ toString n ++ " is out of range"
  | .month => "month must be in 1..12"
  | .day => "day is out of range for month"
  | .hour => "hour must be in 0..23"
  | .minute => "minute must be in 0..59"
  | .second => "second must be in 0..59"

/-- The wording of a fault; a malformed text has none of its own. -/
def Fault.message? : Fault → Option String
  | .malformed => none
  | .encoding fault => some fault.message
  | .noCodePoint => some "chr() arg not in range(0x110000)"
  | .codePointTooLarge => some "Python int too large to convert to C int"
  | .notInt fault => some fault.message
  | .notFloat text => some ("could not convert string to float: " ++ Quoted.text text)
  | .emptyNumber => some "string index out of range"
  | .baseTooLarge => some "int too large to convert to float"
  | .notBool text => some (Quoted.text text)
  | .notTimestamp => some "'NoneType' object has no attribute 'groupdict'"
  | .timestampMapping => some "expected string or bytes-like object, got 'list'"
  | .datePart part => some part.message
  | .zoneOffset offset =>
      some ("offset must be a timedelta strictly between -timedelta(hours=24) and " ++
        "timedelta(hours=24), not " ++ offset.quoted ++ ".")
  | .tooDeep => some "maximum recursion depth exceeded"

end LiveFeed.Yaml
