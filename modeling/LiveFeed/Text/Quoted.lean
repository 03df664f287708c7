/-
Quoted text: how strings of characters and of octets are shown inside messages.  The quote is a
single one unless the text holds single quotes and no double ones; the quote itself, backslashes and
everything that cannot be shown is escaped.
-/
import LiveFeed.Text.Hex
import LiveFeed.Text.Printable

namespace LiveFeed.Quoted

/-- The quote around a text, chosen by which quotes it holds. -/
def quoteFor (holdsSingle holdsDouble : Bool) : Char :=
  if holdsSingle && !holdsDouble then '"' else '\''

/-- The lowest `width` hexadecimal digits of a number. -/
def hexDigits : Nat → Nat → List Char
  | 0, _ => []
  | width + 1, n => hexDigits width (n / 16) ++ [Hex.digit (n % 16)]

/-- A code point as an escape of two, four or eight digits, the fewest that hold it. -/
def numericEscape (n : Nat) : List Char :=
  if n ≤ 0xFF then '\\' :: 'x' :: hexDigits 2 n
  else if n ≤ 0xFFFF then '\\' :: 'u' :: hexDigits 4 n
  else '\\' :: 'U' :: hexDigits 8 n

/-- One code point inside quotes: `isMarked` says which characters have a backslash before them, and
`isShown` which ones stand for themselves. -/
def escape (isMarked isShown : Char → Bool) : CodePoint → List Char
  | .half n => numericEscape (CodePoint.half n).toNat
  | .char c =>
      if isMarked c then ['\\', c]
      else if c = '\t' then ['\\', 't']
      else if c = '\n' then ['\\', 'n']
      else if c = '\r' then ['\\', 'r']
      else if isShown c then [c]
      else numericEscape c.toNat

/-- Code points between quotes.  The quote and the backslash are marked, and whatever `isMarked`
adds. -/
def enclose (isMarked isShown : Char → Bool) (ps : List CodePoint) : List Char :=
  let quote := quoteFor (ps.contains (.char '\'')) (ps.contains (.char '"'))
  quote :: ps.flatMap (escape (fun c => c == quote || c == '\\' || isMarked c) isShown) ++ [quote]

/-- A text between quotes. -/
def text (t : Text) : String :=
  String.ofList (enclose (fun _ => false) Printable.isPrintable t.points)

/-- Octets between quotes after a `b`, each shown as the ASCII character it encodes, if any. -/
def octets (isMarked : Char → Bool) (bs : Bytes) : String :=
  String.ofList ('b' :: enclose isMarked (fun c => 32 ≤ c.toNat && c.toNat < 127)
    (bs.map fun b => .char (Char.ofNat b.toNat)))

/-- The octets of a payload. -/
def bytes (bs : Bytes) : String :=
  octets (fun _ => false) bs

/-- Octets that may still grow: a single quote is marked whichever quotes stand around them. -/
def growable (bs : Bytes) : String :=
  "bytearray(" ++ octets (· == '\'') bs ++ ")"

end LiveFeed.Quoted
