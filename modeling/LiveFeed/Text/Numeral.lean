/-
Numbers given as text by people: on the command line and in configuration files.  Blanks around a
number, single underscores between its digits and decimal digits of every script are accepted.
-/
import LiveFeed.Number.Binary64
import LiveFeed.Limits
import LiveFeed.Text.Quoted

namespace LiveFeed.Numeral

/-- Whether a character counts as a blank around a number. -/
def isBlank (c : Char) : Bool :=
  Hex.isBlank c ||
    [0x85, 0xA0, 0x1680, 0x2028, 0x2029, 0x202F, 0x205F, 0x3000].contains c.toNat ||
    (0x2000 ≤ c.toNat && c.toNat ≤ 0x200A)

/-- The code points of the digit zero of each script; the other nine digits follow each of them. -/
def zeros : List Nat := [
  48, 1632, 1776, 1984, 2406, 2534, 2662, 2790, 2918, 3046, 3174, 3302, 3430, 3558, 3664, 3792,
  3872, 4160, 4240, 6112, 6160, 6470, 6608, 6784, 6800, 6992, 7088, 7232, 7248, 42528, 43216,
  43264, 43472, 43504, 43600, 44016, 65296, 66720, 68912, 69734, 69872, 69942, 70096, 70384,
  70736, 70864, 71248, 71360, 71472, 71904, 72016, 72784, 73040, 73120, 92768, 92864, 93008,
  120782, 120792, 120802, 120812, 120822, 123200, 123632, 125264, 130032]

/-- A decimal digit of any script as the ASCII one; every other character stays. -/
def normalDigit (c : Char) : Char :=
  match zeros.find? (fun z => z ≤ c.toNat && c.toNat ≤ z + 9) with
  | some z => Char.ofNat (48 + (c.toNat - z))
  | none => c

/-- The characters between the blanks, with ASCII digits. -/
def trimmed (cs : List Char) : List Char :=
  (((cs.dropWhile isBlank).reverse.dropWhile isBlank).reverse).map normalDigit

/-- Digits with single underscores between them, without the underscores; none when one leads, ends
or follows another.  The flag says whether a digit has just been read. -/
def withoutUnderscores? (isDigit : Char → Bool) : Bool → List Char → Option (List Char)
  | _, [] => some []
  | afterDigit, '_' :: rest =>
      match afterDigit, rest with
      | true, d :: _ => if isDigit d then withoutUnderscores? isDigit false rest else none
      | _, _ => none
  | _, c :: rest => (withoutUnderscores? isDigit (isDigit c) rest).map (c :: ·)

/-- A leading sign, and what follows it. -/
def splitSign : List Char → Bool × List Char
  | '-' :: rest => (true, rest)
  | '+' :: rest => (false, rest)
  | cs => (false, cs)

/-- Why a text is no whole number. -/
inductive Fault where
  | malformed (base : Nat) (text : Text)
  | tooLong (digits : Nat)
deriving Repr, DecidableEq

/-- The wording of a fault; of a long text only the beginning is shown. -/
def Fault.message : Fault → String
  | .malformed base text =>
      "invalid literal for int() with base " ++ toString base ++ ": " ++
        String.ofList ((Quoted.text text).toList.take 200)
  | .tooLong digits => Digits.unread digits

/-- The letter after a zero that announces a base. -/
def baseLetter? : Nat → Option Char
  | 2 => some 'b'
  | 8 => some 'o'
  | 16 => some 'x'
  | _ => none

/-- Drops the zero and letter that announce the base, and one underscore after them. -/
def dropBaseMark (base : Nat) : List Char → List Char
  | '0' :: letter :: rest =>
      if baseLetter? base = some letter.toLower then
        match rest with
        | '_' :: rest => rest
        | rest => rest
      else '0' :: letter :: rest
  | cs => cs

def isDigitOf (base : Nat) (c : Char) : Bool :=
  match Hex.value? c with
  | some v => v < base
  | none => false

/-- The number that digits of a base stand for. -/
def ofDigits (base : Nat) (cs : List Char) : Nat :=
  cs.foldl (fun n c => base * n + (Hex.value? c).getD 0) 0

/-- The digits that a text begins with, and what follows them.  Single underscores may stand between
digits; there is no number where another one stands. -/
def leadingDigits? (base : Nat) (cs : List Char) : Option (List Char × List Char) :=
  let isPart (c : Char) : Bool := isDigitOf base c || c == '_'
  (withoutUnderscores? (isDigitOf base) false (cs.takeWhile isPart)).map fun digits =>
    (digits, cs.dropWhile isPart)

/-- The whole number that a text stands for in a base of at most sixteen.  Decimal digits are
counted before anything is said about what follows them. -/
def readInt (base : Nat) (text : Text) : Except Fault Int :=
  let (negative, rest) := splitSign (trimmed text.chars)
  match leadingDigits? base (dropBaseMark base rest) with
  | none => .error (.malformed base text)
  | some (digits, left) =>
      if base = 10 ∧ Digits.limit < digits.length then .error (.tooLong digits.length)
      else if digits.isEmpty || !left.isEmpty then .error (.malformed base text)
      else
        let n := ofDigits base digits
        .ok (if negative then -(n : Int) else n)

/-- The exponent after an `e`: an optional sign and at least one digit. -/
def readExponent? : List Char → Option Int
  | [] => some 0
  | e :: rest =>
      let (negative, digits) := splitSign rest
      if (e = 'e' ∨ e = 'E') ∧ !digits.isEmpty ∧ digits.all Char.isDigit then
        let n := Nat.ofDigitChars 10 digits 0
        some (if negative then -(n : Int) else n)
      else none

/-- The number that an unsigned decimal stands for: digits with at most one point among them, and an
optional exponent. -/
def readDecimal? (negative : Bool) (cs : List Char) : Option Float :=
  let whole := cs.takeWhile Char.isDigit
  let rest := cs.dropWhile Char.isDigit
  let (fraction, rest) := match rest with
    | '.' :: rest => (rest.takeWhile Char.isDigit, rest.dropWhile Char.isDigit)
    | rest => ([], rest)
  if whole.isEmpty && fraction.isEmpty then none
  else (readExponent? rest).map fun e =>
    Binary64.ofDecimal negative (Nat.ofDigitChars 10 (whole ++ fraction) 0) (e - fraction.length)

/-- The floating point number that a text stands for: a decimal, or a spelled-out infinity or
`nan` in any letter case. -/
def readFloat? (text : Text) : Option Float :=
  match withoutUnderscores? Char.isDigit false (trimmed text.chars) with
  | none => none
  | some cs =>
      let (negative, rest) := splitSign cs
      let word := String.ofList (rest.map Char.toLower)
      if word = "inf" ∨ word = "infinity" then
        some (Binary64.infinity negative)
      else if word = "nan" then some (Binary64.nan negative)
      else readDecimal? negative rest

end LiveFeed.Numeral
