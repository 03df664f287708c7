/-
What the machine sets limits to: the digits of whole numbers, how deep values may be nested, the
lines that a terminal shows and the times that can be slept.
-/
import LiveFeed.Number.Binary64
import LiveFeed.Text.Utf8

namespace LiveFeed

namespace Digits

/-- The most digits that a whole number may have where it is written or read as a decimal.  Longer
ones can be computed with and compared, but they have no text, and a text of that length is no
number. -/
def limit : Nat := 4300

/-- Whether a whole number can be written. -/
def fit (n : Int) : Bool := n.natAbs < Nat.pow 10 limit

/-- The beginning of the wordings for numbers that are too long. -/
def tooLong : String :=
  "Exceeds the limit (" ++ toString limit ++ " digits) for integer string conversion"

/-- The end of the wordings for numbers that are too long. -/
def advice : String := "; use sys.set_int_max_str_digits() to increase the limit"

/-- The wording for a number that is too long to be written. -/
def unwritten : String := tooLong ++ advice

/-- The wording for a text with too many digits to be read. -/
def unread (count : Nat) : String :=
  tooLong ++ ": value has " ++ toString count ++ " digits" ++ advice

end Digits

namespace Sleep

/-- Why a time cannot be slept. -/
inductive Fault where
  | negative
  | notANumber
  | tooLong
deriving Repr, DecidableEq

def Fault.message : Fault → String
  | .negative => "sleep length must be non-negative"
  | .notANumber => "Invalid value NaN (not a number)"
  | .tooLong => "timestamp out of range for platform time_t"

/-- The number of nanoseconds from which on a time is too long, about three hundred years. -/
def nanosLimit : Int := Int.pow 2 63

/-- What keeps a number of seconds from being slept, if something does.  They are counted in
nanoseconds, of which the last one may be broken. -/
def fault? (seconds : Float) : Option Fault :=
  match Binary64.read (seconds * 1e9) with
  | .nan => some .notANumber
  | .infinite _ => some .tooLong
  | .finite negative mantissa exponent =>
      let nanos := Binary64.truncated negative mantissa exponent
      if nanosLimit ≤ nanos ∨ nanos < -nanosLimit then some .tooLong
      else if negative ∧ mantissa ≠ 0 then some .negative
      else none

end Sleep

/-- The limits that the machine sets to the programs. -/
class Limits where
  /-- How many values may stand one inside the other in a text that is read. -/
  readDepth : Nat
  /-- How many values may stand one inside the other when they are written. -/
  writeDepth : Nat
  /-- How many values may stand one inside the other when they are put in words, the innermost
  counted. -/
  wordDepth : Nat
  /-- What keeps a line from being shown, if something does. -/
  unprinted? : Text → Option Utf8.Unpaired
  /-- What keeps a number of seconds from being slept, if something does. -/
  unslept? : Float → Option Sleep.Fault
  /-- Snapshots can be written and read. -/
  three_le_readDepth : 3 ≤ readDepth
  three_le_writeDepth : 3 ≤ writeDepth
  /-- What stands in an object that was read can be put in words. -/
  readDepth_le_wordDepth : readDepth ≤ wordDepth
  /-- Every line of characters can be shown. -/
  unprinted?_eq_none : ∀ line : Text, line.hasHalf = false → unprinted? line = none
  /-- Every time that can be counted can be slept. -/
  unslept?_eq_none : ∀ seconds, Sleep.fault? seconds = none → unslept? seconds = none

/-- A text without halves has none that keeps it from being written as octets. -/
theorem Utf8.unpaired?_eq_none_of_hasHalf {t : Text} (h : t.hasHalf = false) :
    Utf8.unpaired? CodePoint.isHalf t = none := by
  have hdrop (points : List CodePoint) (hpoints : points.any CodePoint.isHalf = false) :
      points.dropWhile (!CodePoint.isHalf ·) = [] := by
    induction points with
    | nil => rfl
    | cons p rest ih =>
        simp only [List.any_cons, Bool.or_eq_false_iff] at hpoints
        simp [hpoints.1, ih hpoints.2]
  simp [Utf8.unpaired?, hdrop t.points h]

namespace Limits

/-- The usual limits. -/
scoped instance usual : Limits where
  readDepth := 994
  writeDepth := 995
  wordDepth := 995
  unprinted? := Utf8.unpaired? CodePoint.isHalf
  unslept? := Sleep.fault?
  three_le_readDepth := by decide
  three_le_writeDepth := by decide
  readDepth_le_wordDepth := by decide
  unprinted?_eq_none _ := Utf8.unpaired?_eq_none_of_hasHalf
  unslept?_eq_none _ := id

end Limits
end LiveFeed
