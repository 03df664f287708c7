/-
Values as text: `quoted` as they stand inside messages and other values, `text` as they stand alone.
The two differ for texts, which stand alone without quotes, and for points and spans of time.
-/
import LiveFeed.Number.Decimal
import LiveFeed.Text.Quoted
import LiveFeed.Value.Basic

namespace LiveFeed.Value

/-- The text of a value that is neither a list nor an object, with quotes. -/
def quotedScalar : Value → String
  | .null => "None"
  | .bool true => "True"
  | .bool false => "False"
  | .int n => toString n
  | .float x => FloatText.plain x
  | .str t => Quoted.text t
  | .bytes .fixed octets => Quoted.bytes octets
  | .bytes .growable octets => Quoted.growable octets
  | .bytes .view _ => "<memory>"
  | .instant t => t.quoted
  | .span s => s.quoted
  | .list _ => "[]"
  | .object _ => "\x7b\x7d"

mutual

/-- The text of a value inside a message or another value. -/
def quoted : Value → String
  | .list items => "[" ++ quotedItems items ++ "]"
  | .object fields => "\x7b" ++ quotedFields fields ++ "\x7d"
  | v => quotedScalar v

/-- Items with commas between them. -/
def quotedItems : List Value → String
  | [] => ""
  | [v] => quoted v
  | v :: rest => quoted v ++ ", " ++ quotedItems rest

/-- Keys and values with commas between them. -/
def quotedFields : List (Text × Value) → String
  | [] => ""
  | [(key, v)] => Quoted.text key ++ ": " ++ quoted v
  | (key, v) :: rest => Quoted.text key ++ ": " ++ quoted v ++ ", " ++ quotedFields rest

end

/-- The text of a value that stands alone. -/
def text : Value → Text
  | .str t => t
  | .instant t => t.text
  | .span s => s.text
  | v => quoted v

end LiveFeed.Value
