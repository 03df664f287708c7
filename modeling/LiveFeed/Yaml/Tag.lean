/-
The types of nodes.  A tag names one; a plain scalar without a tag has the type whose form its text
takes, and is a text if it takes none.
-/
import LiveFeed.Text.Basic

namespace LiveFeed.Yaml

/-- The types that a tag can name; every other tag names a type that has no values. -/
inductive Tag where
  | null
  | bool
  | int
  | float
  | binary
  | timestamp
  | orderedMap
  | pairs
  | set
  | str
  | seq
  | map
  /-- The key `<<`, whose value is a mapping to take fields from. -/
  | merge
  /-- The key `=`, whose value stands for the whole mapping where a scalar is wanted. -/
  | default
  | unknown
deriving Repr, DecidableEq

namespace Tag

/-- What the names of all types begin with. -/
def namespaceText : String := "tag:yaml.org,2002:"

/-- The types with their names. -/
def names : List (String × Tag) :=
  [("null", null), ("bool", bool), ("int", int), ("float", float), ("binary", binary),
    ("timestamp", timestamp), ("omap", orderedMap), ("pairs", pairs), ("set", set), ("str", str),
    ("seq", seq), ("map", map), ("merge", merge), ("value", default)]

/-- The type that a tag names. -/
def ofName (name : String) : Tag :=
  match names.find? fun entry => namespaceText ++ entry.1 == name with
  | some entry => entry.2
  | none => unknown

/-! Forms of plain scalars -/

def isLooseDigit (c : Char) : Bool := c.isDigit || c == '_'

/-- Whether a character is a hexadecimal digit. -/
def isHexDigit (c : Char) : Bool :=
  c.isDigit || ('a' ≤ c && c ≤ 'f') || ('A' ≤ c && c ≤ 'F')

/-- The text after an optional sign. -/
def unsigned : List Char → List Char
  | '-' :: rest => rest
  | '+' :: rest => rest
  | cs => cs

/-- Whether a text is not empty and all its characters are of a kind. -/
def isRun (test : Char → Bool) (cs : List Char) : Bool := !cs.isEmpty && cs.all test

/-- A digit, and then digits and underscores. -/
def isLooseNumber : List Char → Bool
  | [] => false
  | c :: rest => c.isDigit && rest.all isLooseDigit

/-- A number below sixty of one or two digits. -/
def isSixtieth : List Char → Bool
  | [c] => c.isDigit
  | [tens, ones] => '0' ≤ tens && tens ≤ '5' && ones.isDigit
  | _ => false

/-- The parts of a text between its colons. -/
def colonParts (cs : List Char) : List (List Char) :=
  match cs with
  | [] => [[]]
  | ':' :: rest => [] :: colonParts rest
  | c :: rest =>
      match colonParts rest with
      | part :: parts => (c :: part) :: parts
      | [] => [[c]]

/-- Whether a whole number is written in base sixty. -/
def isSexagesimal (cs : List Char) : Bool :=
  match colonParts cs with
  | first :: second :: rest =>
      isLooseNumber first && first.head? != some '0' && (second :: rest).all isSixtieth
  | _ => false

/-- Whether a text is a whole number: binary, octal, decimal, hexadecimal, or in base sixty. -/
def isInt (cs : List Char) : Bool :=
  let digits := unsigned cs
  match digits with
  | '0' :: 'b' :: rest => isRun (fun c => c == '0' || c == '1' || c == '_') rest
  | '0' :: 'x' :: rest => isRun (fun c => isHexDigit c || c == '_') rest
  | ['0'] => true
  | '0' :: rest => rest.all fun c => ('0' ≤ c && c ≤ '7') || c == '_'
  | digits => isLooseNumber digits || isSexagesimal digits

/-- An optional exponent, which has a sign. -/
def isExponent : List Char → Bool
  | [] => true
  | letter :: sign :: digits =>
      (letter == 'e' || letter == 'E') && (sign == '-' || sign == '+') && isRun Char.isDigit digits
  | _ => false

/-- Digits and underscores, and an optional exponent. -/
def isFraction (cs : List Char) : Bool := isExponent (cs.dropWhile isLooseDigit)

/-- Whether a number with a fraction is written in base sixty. -/
def isSexagesimalFraction (cs : List Char) : Bool :=
  let whole := cs.takeWhile (· != '.')
  match cs.dropWhile (· != '.'), colonParts whole with
  | _ :: fraction, first :: second :: rest =>
      isLooseNumber first && (second :: rest).all isSixtieth && fraction.all isLooseDigit
  | _, _ => false

/-- Whether a text is a number with a point in it, an infinity, or not a number. -/
def isFloat (cs : List Char) : Bool :=
  let digits := unsigned cs
  let whole := digits.takeWhile isLooseDigit
  (match digits.drop whole.length with
    | '.' :: fraction => isLooseNumber whole && isFraction fraction
    | _ => false)
  || (match cs with
    | '.' :: first :: rest => first.isDigit && isFraction rest
    | _ => false)
  || isSexagesimalFraction digits
  || [".inf", ".Inf", ".INF"].contains (String.ofList digits)
  || [".nan", ".NaN", ".NAN"].contains (String.ofList cs)

/-- The one or two digits that a text begins with, and what follows them. -/
def shortNumber? : List Char → Option (List Char × List Char)
  | a :: b :: rest =>
      if a.isDigit then (if b.isDigit then some ([a, b], rest) else some ([a], b :: rest)) else none
  | [a] => if a.isDigit then some ([a], []) else none
  | [] => none

/-- The two digits that a text begins with, and what follows them. -/
def twoDigits? (cs : List Char) : Option (List Char × List Char) :=
  match cs with
  | a :: b :: rest => if a.isDigit && b.isDigit then some ([a, b], rest) else none
  | _ => none

/-- What follows a character at the beginning of a text. -/
def after? (c : Char) : List Char → Option (List Char)
  | d :: rest => if c == d then some rest else none
  | [] => none

end Tag

/-- The time zone of a timestamp: none, the zero meridian, or an offset. -/
inductive Zone where
  | none
  | utc
  | offset (negative : Bool) (hour minute : List Char)
deriving Repr, DecidableEq

/-- The digits of the parts of a timestamp.  The time of day may be missing. -/
structure TimestampText where
  year : List Char
  month : List Char
  day : List Char
  time : Option (List Char × List Char × List Char × List Char)
  zone : Zone
deriving Repr, DecidableEq

namespace TimestampText

/-- A blank in front of a time of day or a time zone. -/
def isBlank (c : Char) : Bool := c == ' ' || c == '\t'

/-- What follows a `T`, or blanks, between date and time of day. -/
def afterGap? : List Char → Option (List Char)
  | c :: rest =>
      if c == 'T' || c == 't' then some rest
      else if isBlank c then some (rest.dropWhile isBlank)
      else none
  | [] => none

/-- The time zone that the rest of a text consists of. -/
def zone? (cs : List Char) : Option Zone :=
  match cs.dropWhile isBlank with
  | [] => if cs.isEmpty then some .none else none
  | ['Z'] => some .utc
  | c :: rest =>
      if c == '-' || c == '+' then
        match Tag.shortNumber? rest with
        | some (hour, []) => some (.offset (c == '-') hour [])
        | some (hour, ':' :: rest) =>
            match Tag.twoDigits? rest with
            | some (minute, []) => some (.offset (c == '-') hour minute)
            | _ => none
        | _ => none
      else none

/-- The parts of a text that is a timestamp in its long form: a date, and a time of day that may be
missing. -/
def ofText? (cs : List Char) : Option TimestampText := do
  let year := cs.take 4
  if !(year.length == 4 && year.all Char.isDigit) then none
  let (month, rest) ← Tag.shortNumber? (← Tag.after? '-' (cs.drop 4))
  let (day, rest) ← Tag.shortNumber? (← Tag.after? '-' rest)
  if rest.isEmpty then return ⟨year, month, day, none, .none⟩
  let (hour, rest) ← Tag.shortNumber? (← afterGap? rest)
  let (minute, rest) ← Tag.twoDigits? (← Tag.after? ':' rest)
  let (second, rest) ← Tag.twoDigits? (← Tag.after? ':' rest)
  let fraction := match rest with
    | '.' :: rest => rest.takeWhile Char.isDigit
    | _ => []
  let rest := match rest with
    | '.' :: rest => rest.dropWhile Char.isDigit
    | rest => rest
  return ⟨year, month, day, some (hour, minute, second, fraction), ← zone? rest⟩

/-- Whether a plain scalar is a timestamp: month and day have two digits if there is no time. -/
def isPlain (cs : List Char) : Bool :=
  match ofText? cs with
  | some t => t.time.isSome || (t.month.length == 2 && t.day.length == 2)
  | none => false

end TimestampText

namespace Tag

/-- The spellings of truth values. -/
def boolNames : List String :=
  ["yes", "Yes", "YES", "no", "No", "NO", "true", "True", "TRUE", "false", "False", "FALSE",
    "on", "On", "ON", "off", "Off", "OFF"]

def nullNames : List String := ["", "~", "null", "Null", "NULL"]

/-- The marks that nothing can be written with: a scalar that is one of them has no type. -/
def loneMarks : List String := ["!", "&", "*"]

/-- A text without one line feed at its end. -/
def withoutLineFeed (cs : List Char) : List Char :=
  match cs.reverse with
  | '\n' :: c :: rest => (c :: rest).reverse
  | _ => cs

/-- The type of a scalar without a tag. -/
def ofPlain (text : Text) : Tag :=
  let cs := withoutLineFeed text.chars
  let text := String.ofList cs
  if boolNames.contains text then bool
  else if isFloat cs then float
  else if isInt cs then int
  else if text == "<<" then merge
  else if nullNames.contains text then null
  else if TimestampText.isPlain cs then timestamp
  else if text == "=" then default
  else if loneMarks.contains text then unknown
  else str

end Tag
end LiveFeed.Yaml
