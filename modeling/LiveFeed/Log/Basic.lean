/-
A log of payloads in the order in which they were recorded, of which a time window is visible.

Timestamps never decrease along a log, so the entries that have outlived `lifetime` come first and
one boundary separates them from the live ones.  A log reads no clock: the current time is an
argument of every operation, and any type of timestamp will do whose differences compare with the
lifetime.
-/
import LiveFeed.Value.Order
import LiveFeed.Value.Text

namespace LiveFeed

namespace Boundary

/-- Binary search: narrows the range from `low` to `high` down to one index.  Of an ordered range, in
which the test never holds before it does not, this is the first index at which it holds, or `high`.
The test may fail, and then the search fails with it; it is asked only at the middle of what is
left. -/
def search {ε : Type} (test : Nat → Except ε Bool) (low high : Nat) : Except ε Nat :=
  if low < high then
    match test ((low + high) / 2) with
    | .error e => .error e
    | .ok true => search test low ((low + high) / 2)
    | .ok false => search test ((low + high) / 2 + 1) high
  else .ok low
termination_by high - low

end Boundary

/-- A payload and the time at which it was recorded. -/
structure Entry where
  payload : Bytes
  recordedAt : Value
deriving Repr, Inhabited

/-- Whether an entry is younger than the lifetime. -/
def Entry.isLive (lifetime now : Value) (e : Entry) : Except Value.Fault Bool := do
  let age ← now.subtract e.recordedAt
  return !(← Value.order .atLeast age lifetime)

/-- The entries of a time window of a given length, and perhaps some that have left it. -/
structure Log where
  lifetime : Value
  entries : List Entry
deriving Repr, Inhabited

namespace Log

/-- Why a log refuses an operation. -/
inductive Fault where
  /-- The payload is no string of octets. -/
  | notOctets (kind : Kind)
  /-- The current time is older than the newest entry. -/
  | stale (now latest : Value)
  /-- The current time is older than the newest entry, but the refusal, which names both, cannot be
  put in words. -/
  | wordless (cause : Value.Wordless)
  /-- An entry is older than the one before it. -/
  | outOfOrder (later earlier : Value)
  /-- Two times cannot be compared or subtracted. -/
  | value (fault : Value.Fault)
deriving Repr

def Fault.message [Limits] : Fault → String
  | .notOctets kind => "payload must be bytes-like, not " ++ kind.shortName
  | .stale now latest =>
      "time " ++ now.quoted ++ " is older than latest entry at " ++ latest.quoted
  | .wordless cause => cause.message
  | .outOfOrder later earlier =>
      match later.wordless?.or earlier.wordless? with
      | some cause => cause.message
      | none => "entries out of order: " ++ later.quoted ++ " after " ++ earlier.quoted
  | .value fault => fault.message

/-- What a time is refused with that is older than the newest entry. -/
def Fault.ofStale [Limits] (now latest : Value) : Fault :=
  match now.wordless?.or latest.wordless? with
  | some cause => .wordless cause
  | none => .stale now latest

theorem Fault.ofStale_int [Limits] (now latest : Int) :
    ofStale (.int now) (.int latest) =
      if Digits.fit now && Digits.fit latest then .stale (.int now) (.int latest)
      else .wordless .tooLong := by
  rw [ofStale, Value.wordless?_int, Value.wordless?_int]
  cases Digits.fit now <;> cases Digits.fit latest <;> rfl

theorem Fault.ofStale_of_fit [Limits] {now latest : Int} (hnow : Digits.fit now = true)
    (hlatest : Digits.fit latest = true) :
    ofStale (.int now) (.int latest) = .stale (.int now) (.int latest) := by
  simp [ofStale_int, hnow, hlatest]

/-- The octets of a payload; values of other types are refused. -/
def octets (payload : Value) : Except Fault Bytes :=
  match payload with
  | .bytes _ octets => .ok octets
  | v => .error (.notOctets v.kind)

/-- A log without entries. -/
def empty (lifetime : Value) : Log := ⟨lifetime, []⟩

/-- Checks that no entry is older than the one before it. -/
def checkOrder : List Entry → Except Fault Unit
  | earlier :: later :: rest =>
      match Value.order .less later.recordedAt earlier.recordedAt with
      | .error fault => .error (.value fault)
      | .ok true => .error (.outOfOrder later.recordedAt earlier.recordedAt)
      | .ok false => checkOrder (later :: rest)
  | _ => .ok ()

/-- A log of entries that are given in order. -/
def ofEntries? (lifetime : Value) (entries : List Entry) : Except Fault Log := do
  checkOrder entries
  return ⟨lifetime, entries⟩

/-- The time of the newest entry. -/
def latest? (log : Log) : Option Value :=
  log.entries.getLast?.map (·.recordedAt)

/-- The number of entries, live or not. -/
def size (log : Log) : Nat := log.entries.length

/-- Refuses a time that is older than the newest entry. -/
def checkTime [Limits] (log : Log) (now : Value) : Except Fault Unit :=
  match log.latest? with
  | none => .ok ()
  | some .null => .ok ()
  | some latest =>
      match Value.order .greater latest now with
      | .error fault => .error (.value fault)
      | .ok true => .error (.ofStale now latest)
      | .ok false => .ok ()

/-- Whether the entry at an index is live; beyond the end nothing has expired. -/
def isLiveAt (log : Log) (now : Value) (index : Nat) : Except Value.Fault Bool :=
  match log.entries[index]? with
  | some e => e.isLive log.lifetime now
  | none => .ok true

/-- The index of the first live entry, or the number of entries. -/
def boundary (log : Log) (now : Value) : Except Fault Nat :=
  (Boundary.search (log.isLiveAt now) 0 log.entries.length).mapError .value

/-- Drops the entries that have expired, and counts them. -/
def evict [Limits] (log : Log) (now : Value) : Except Fault (Nat × Log) := do
  log.checkTime now
  let count ← log.boundary now
  return (count, { log with entries := log.entries.drop count })

/-- Evicts what has expired and records a payload at the current time. -/
def push [Limits] (log : Log) (now payload : Value) : Except Fault Log := do
  let payload ← octets payload
  let (_, kept) ← log.evict now
  return { kept with entries := kept.entries ++ [⟨payload, now⟩] }

/-- The payloads that are live at a time, oldest first.  They are those of the log as it is now;
changes made to it afterwards do not reach them. -/
def live (log : Log) (now : Value) : Except Fault (List Bytes) := do
  let count ← log.boundary now
  return (log.entries.drop count).map (·.payload)

/-- A one-line description. -/
def text (log : Log) : String :=
  "TimeWindowedLog(lifetime=" ++ log.lifetime.quoted ++ ", entries=" ++ toString log.size ++ ")"

end Log

/-- A reader that has taken some of the live payloads and holds those still to come. -/
structure Cursor where
  remaining : List Bytes
deriving Repr, DecidableEq

namespace Cursor

/-- Takes up to `n` payloads. -/
def take (cursor : Cursor) (n : Nat) : List Bytes × Cursor :=
  (cursor.remaining.take n, ⟨cursor.remaining.drop n⟩)

end Cursor

/-- A reader of the payloads that are live at a time. -/
def Log.openCursor (log : Log) (now : Value) : Except Log.Fault Cursor := do
  return ⟨← log.live now⟩

end LiveFeed
