/-
Dates, points in time and spans of time.  A point is the number of microseconds since the first
midnight of the calendar and a span a signed number of microseconds, so that order and difference
are those of whole numbers; years, months and days appear only where a point is shown or entered.
-/
namespace LiveFeed

/-- A day of the Gregorian calendar, which is extended backward to the year one. -/
structure Date where
  year : Nat
  month : Nat
  day : Nat
deriving Repr, DecidableEq

namespace Date

/-- Every fourth year but three of four centuries. -/
def isLeap (year : Nat) : Bool :=
  year % 4 = 0 && (year % 100 ≠ 0 || year % 400 = 0)

def daysInMonth (year month : Nat) : Nat :=
  if month = 2 then (if isLeap year then 29 else 28)
  else if [4, 6, 9, 11].contains month then 30
  else 31

/-- The number of days before the first of a month in its year. -/
def daysBeforeMonth (year month : Nat) : Nat :=
  (List.range (month - 1)).foldl (fun days m => days + daysInMonth year (m + 1)) 0

/-- The number of days before the first of January of a year, from the year one on. -/
def daysBeforeYear (year : Nat) : Nat :=
  let past := year - 1
  365 * past + past / 4 - past / 100 + past / 400

/-- The number of days before a date. -/
def ordinal (d : Date) : Nat :=
  daysBeforeYear d.year + daysBeforeMonth d.year d.month + (d.day - 1)

/-- Finds the month in which the day `days` of the rest of a year falls, from `month` on. -/
def inYear (year days : Nat) : Nat → Nat → Date
  | 0, month => ⟨year, month, days + 1⟩
  | fuel + 1, month =>
      let length := daysInMonth year month
      if days < length then ⟨year, month, days + 1⟩
      else inYear year (days - length) fuel (month + 1)

/-- The date with a number of days before it. -/
def ofOrdinal (days : Nat) : Date :=
  let rest := days % 146097
  let centuries := min 3 (rest / 36524)
  let rest := rest - 36524 * centuries
  let fours := rest / 1461
  let rest := rest % 1461
  let ones := min 3 (rest / 365)
  let year := 400 * (days / 146097) + 100 * centuries + 4 * fours + ones + 1
  inYear year (rest - 365 * ones) 11 1

/-- A number with zeros in front up to a width. -/
def padded (width n : Nat) : String :=
  let digits := Nat.toDigits 10 n
  String.ofList (List.replicate (width - digits.length) '0' ++ digits)

/-- Year, month and day with dashes between them. -/
def text (d : Date) : String :=
  padded 4 d.year ++ "-" ++ padded 2 d.month ++ "-" ++ padded 2 d.day

end Date

/-- The number of microseconds of a second. -/
def microsPerSecond : Nat := 1000000

/-- The number of microseconds of a day. -/
def microsPerDay : Nat := 86400 * microsPerSecond

/-- A point in time, without a time zone: the microseconds since the start of the year one. -/
structure Instant where
  micros : Nat
deriving Repr, DecidableEq

/-- A span of time in microseconds. -/
structure Span where
  micros : Int
deriving Repr, DecidableEq

namespace Instant

/-- The point at a time of day on a date. -/
def ofParts (date : Date) (hour minute second micro : Nat) : Instant :=
  ⟨date.ordinal * microsPerDay + ((hour * 60 + minute) * 60 + second) * microsPerSecond + micro⟩

/-- The points from the year one to the end of the year 9999. -/
def inRange (micros : Int) : Bool :=
  0 ≤ micros && micros < (3652059 * microsPerDay : Nat)

def date (t : Instant) : Date :=
  Date.ofOrdinal (t.micros / microsPerDay)

/-- Hour, minute, second and microsecond of a point. -/
def time (t : Instant) : Nat × Nat × Nat × Nat :=
  let rest := t.micros % microsPerDay
  let seconds := rest / microsPerSecond
  (seconds / 3600, seconds / 60 % 60, seconds % 60, rest % microsPerSecond)

/-- Date and time of day; the microseconds are left out when there are none. -/
def text (t : Instant) : String :=
  let (hour, minute, second, micro) := t.time
  t.date.text ++ " " ++ Date.padded 2 hour ++ ":" ++ Date.padded 2 minute ++ ":" ++
    Date.padded 2 second ++ (if micro = 0 then "" else "." ++ Date.padded 6 micro)

/-- The parts of a point as a call; seconds and microseconds are left out while they are zero. -/
def quoted (t : Instant) : String :=
  let (hour, minute, second, micro) := t.time
  let tail := if micro ≠ 0 then [second, micro] else if second ≠ 0 then [second] else []
  let parts := [t.date.year, t.date.month, t.date.day, hour, minute] ++ tail
  "datetime.datetime(" ++ String.intercalate ", " (parts.map toString) ++ ")"

end Instant

namespace Span

/-- The span of a number of days, seconds and microseconds. -/
def ofParts (days seconds micros : Int) : Span :=
  ⟨(days * 86400 + seconds) * microsPerSecond + micros⟩

/-- The days of a span, rounded down. -/
def days (s : Span) : Int :=
  s.micros.fdiv microsPerDay

/-- The seconds within the last day. -/
def seconds (s : Span) : Int :=
  (s.micros.fmod microsPerDay).fdiv microsPerSecond

/-- The microseconds within the last second. -/
def rest (s : Span) : Int :=
  s.micros.fmod microsPerSecond

/-- The most days that a span may have on either side of zero. -/
def dayLimit : Int := 999999999

/-- The spans of at most `dayLimit` days on either side. -/
def inRange (s : Span) : Bool :=
  -dayLimit ≤ s.days && s.days ≤ dayLimit

/-- Days, hours, minutes and seconds; days and microseconds are left out when there are none. -/
def text (s : Span) : String :=
  let seconds := s.seconds.toNat
  (if s.days = 0 then ""
    else toString s.days ++ (if s.days = 1 ∨ s.days = -1 then " day, " else " days, ")) ++
  toString (seconds / 3600) ++ ":" ++ Date.padded 2 (seconds / 60 % 60) ++ ":" ++
    Date.padded 2 (seconds % 60) ++
    (if s.rest = 0 then "" else "." ++ Date.padded 6 s.rest.toNat)

/-- The parts of a span that are not zero as a call. -/
def quoted (s : Span) : String :=
  let part (name : String) (n : Int) : List String :=
    if n = 0 then [] else [name ++ "=" ++ toString n]
  let parts := part "days" s.days ++ part "seconds" s.seconds ++ part "microseconds" s.rest
  "datetime.timedelta(" ++ (if parts.isEmpty then "0" else String.intercalate ", " parts) ++ ")"

end Span
end LiveFeed
