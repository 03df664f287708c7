/-
Events as a watcher shows them, one line each.
-/
import LiveFeed.Log.Snapshot

namespace LiveFeed

/-- An event of a feed as it is seen from outside. -/
inductive Sighting where
  | emitted (recordedAt : Value) (data : Bytes)
  | rejected (call error : Value)
deriving Repr

namespace Sighting

/-- Why an object is no event. -/
inductive Fault where
  /-- It tells of an accepted push, but not of its payload. -/
  | noData
  | notText (kind : Kind)
  | notHex (position : Nat)
  | unknownKind (kind : Value)
deriving Repr

def Fault.message : Fault → String
  | .noData => "emitted event without hex data: " ++ Quoted.text "data"
  | .notText kind =>
      "emitted event without hex data: " ++ (Snapshot.EntryFault.notText kind).message
  | .notHex position => Snapshot.notHexMessage position
  | .unknownKind kind => "unknown event kind " ++ kind.quoted

/-- A field of an event, null when it is missing. -/
def detail (event : List (Text × Value)) (key : String) : Value :=
  (Value.field? event key).getD .null

/-- The payload that an event tells of. -/
def data (event : List (Text × Value)) : Except Fault Bytes :=
  match Value.field? event "data" with
  | none => .error .noData
  | some (.str text) => (Hex.decode text).mapError .notHex
  | some other => .error (.notText other.kind)

/-- The event that the fields of an object tell of. -/
def ofFields (event : List (Text × Value)) : Except Fault Sighting :=
  let kind := detail event "event"
  if kind.same (.str "emitted") then do
    return .emitted (detail event "recorded_at") (← data event)
  else if kind.same (.str "rejected") then
    .ok (.rejected (detail event "call") (detail event "error"))
  else .error (.unknownKind kind)

/-- Whether a request was refused. -/
def isRejected : Sighting → Bool
  | .rejected .. => true
  | .emitted .. => false

/-- The line that shows an event. -/
def line : Sighting → Text
  | .emitted recordedAt data =>
      "EMITTED   at=" ++ recordedAt.text ++ "  data=" ++ Quoted.bytes data
  | .rejected call error => "REJECTED  call=" ++ call.text ++ "  error=" ++ error.text

end Sighting
end LiveFeed
