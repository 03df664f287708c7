/-
Texts.  A text is a list of code points: characters, and halves of surrogate pairs that stand alone.
No character is written so, but an escape can name one, and a text that holds one is a text like any
other until it has to be written as octets.
-/
namespace LiveFeed

/-- A code point: a character, or one half of a surrogate pair. -/
inductive CodePoint where
  | char (c : Char)
  | half (n : Fin 2048)
deriving Repr, DecidableEq

namespace CodePoint

/-- The first half of a pair with the lowest number. -/
def firstHalf : Nat := 0xD800

def toNat : CodePoint → Nat
  | char c => c.toNat
  | half n => firstHalf + n

def ofNat (n : Nat) : CodePoint :=
  if h : firstHalf ≤ n ∧ n < firstHalf + 2048 then half ⟨n - firstHalf, by omega⟩
  else char (Char.ofNat n)

/-- The character of a code point.  A half has none and counts as the replacement character, which
is neither a digit nor a blank, a letter or a mark. -/
def toChar : CodePoint → Char
  | char c => c
  | half _ => '\uFFFD'

def isHalf : CodePoint → Bool
  | char _ => false
  | half _ => true

end CodePoint

/-- A list of code points. -/
structure Text where
  points : List CodePoint
deriving Repr, DecidableEq, Inhabited

namespace Text

def ofString (s : String) : Text := ⟨s.toList.map .char⟩

/-- A string stands for the text of its characters. -/
instance : Coe String Text := ⟨ofString⟩

def ofChars (cs : List Char) : Text := ⟨cs.map .char⟩

/-- Two texts one after the other. -/
def append (a b : Text) : Text := ⟨a.points ++ b.points⟩

/-- Texts are put together with the usual sign. -/
instance : Append Text := ⟨append⟩

def chars (t : Text) : List Char := t.points.map CodePoint.toChar

/-- Whether a text has no code points. -/
def isEmpty (t : Text) : Bool := t.points.isEmpty

def hasHalf (t : Text) : Bool := t.points.any CodePoint.isHalf

/-- The order of lists of code points: that of the first difference. -/
def comparePoints : List CodePoint → List CodePoint → Ordering
  | [], [] => .eq
  | [], _ :: _ => .lt
  | _ :: _, [] => .gt
  | x :: xs, y :: ys => (compare x.toNat y.toNat).then (comparePoints xs ys)

/-- Texts are ordered as the lists of their code points. -/
instance : Ord Text := ⟨fun a b => comparePoints a.points b.points⟩

/-- Whether the first list stands somewhere in the second one without a gap. -/
def occursIn (part : List CodePoint) : List CodePoint → Bool
  | [] => part.isEmpty
  | p :: rest => part.isPrefixOf (p :: rest) || occursIn part rest

def contains (t part : Text) : Bool := occursIn part.points t.points

/-- Texts with another one between them. -/
def join (between : Text) : List Text → Text
  | [] => ⟨[]⟩
  | [t] => t
  | t :: rest => t ++ between ++ join between rest

/-- The parts of a list of code points between those that are a given character. -/
def splitPoints (mark : Char) : List CodePoint → List (List CodePoint)
  | [] => [[]]
  | p :: rest =>
      let parts := splitPoints mark rest
      if p = .char mark then [] :: parts
      else match parts with
        | part :: parts => (p :: part) :: parts
        | [] => [[p]]

/-- The parts of a text between the occurrences of a character. -/
def split (mark : Char) (t : Text) : List Text := (splitPoints mark t.points).map Text.mk

/-- Every character of a string is read back from its text. -/
@[simp] theorem chars_ofString (s : String) : (ofString s).chars = s.toList := by
  simp [ofString, chars, CodePoint.toChar, Function.comp_def]

@[simp] theorem hasHalf_ofString (s : String) : (ofString s).hasHalf = false := by
  simp [ofString, hasHalf, CodePoint.isHalf]

end Text

/-! ### Units of sixteen bits

Escapes name such units, and two halves of a pair that follow each other stand for one character. -/

namespace Units

/-- Whether a unit is the first half of a pair. -/
def isHigh (n : Nat) : Bool := 0xD800 ≤ n && n ≤ 0xDBFF

/-- Whether a unit is the second half of a pair. -/
def isLow (n : Nat) : Bool := 0xDC00 ≤ n && n ≤ 0xDFFF

/-- The character of a pair of units. -/
def joined (high low : Nat) : Char :=
  Char.ofNat (0x10000 + (high - 0xD800) * 0x400 + (low - 0xDC00))

/-- The code points of units and of code points beyond them.  Two halves that make a pair are
joined; any other half stays what it is. -/
def points : List Nat → List CodePoint
  | [] => []
  | [n] => [CodePoint.ofNat n]
  | m :: n :: rest =>
      if isHigh m && isLow n then .char (joined m n) :: points rest
      else CodePoint.ofNat m :: points (n :: rest)

/-- The one or two units of the code point with a number. -/
def ofCodePoint (n : Nat) : List Nat :=
  if n < 0x10000 then [n] else [0xD800 + (n - 0x10000) / 0x400, 0xDC00 + (n - 0x10000) % 0x400]

end Units

/-! ### Line ends

Files come from systems that end lines in different ways; texts have line feeds only. -/

namespace LineEnds

/-- Line feeds, carriage returns and both together, all as line feeds. -/
def unify : List Char → List Char
  | '\r' :: '\n' :: rest => '\n' :: unify rest
  | '\r' :: rest => '\n' :: unify rest
  | c :: rest => c :: unify rest
  | [] => []

end LineEnds

end LiveFeed
