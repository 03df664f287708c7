/-
The documents that travel between the programs: requests to a feed, and what becomes of them.
Payloads travel as hexadecimal text.
-/
import LiveFeed.Feed.Basic

namespace LiveFeed

/-- The two operations that a request may ask for. -/
inductive Call where
  | push
  | clean
deriving Repr, DecidableEq

namespace Call

/-- The name of a call in requests, messages and metrics. -/
def name : Call → String
  | .push => "push_data"
  | .clean => "clean_outdated_data"

def ofName? (name : Value) : Option Call :=
  [Call.push, Call.clean].find? fun call => name.same (.str call.name)

end Call

namespace Message

def pushRequest (origin : Value) (payload : Bytes) : Value :=
  .object [("call", .str Call.push.name), ("origin", origin), ("data", .str (Hex.encode payload))]

def cleanRequest : Value :=
  .object [("call", .str Call.clean.name)]

/-- The message about an accepted push. -/
def emitted (event : Event) : Value :=
  .object [("event", .str "emitted"), ("data", .str (Hex.encode event.data)),
    ("recorded_at", event.recordedAt)]

/-- The message about a refused request. -/
def rejected (call : Call) (reason : Reason) (detail : String) : Value :=
  .object [("event", .str "rejected"), ("call", .str call.name), ("error", .str reason.name),
    ("detail", .str detail)]

end Message

/-- What becomes of a request that is understood. -/
inductive Outcome where
  | emitted (event : Event)
  | cleaned (count : Nat)
  | rejected (call : Call) (reason : Reason) (detail : String)
deriving Repr

namespace Outcome

/-- The message about an outcome; an accepted cleanup has none. -/
def message : Outcome → Value
  | .emitted event => Message.emitted event
  | .cleaned _ => .null
  | .rejected call reason detail => Message.rejected call reason detail

/-- Whether the request was accepted. -/
def isAccepted : Outcome → Bool
  | .rejected .. => false
  | _ => true

end Outcome

/-! ### On the way

Messages travel as octets that hold an object as JSON text in UTF-8. -/

namespace Wire

/-- Why octets hold no object. -/
inductive Fault where
  | encoding (fault : Utf8.Fault)
  | json (fault : Json.Fault)
  | notObject
deriving Repr, DecidableEq

/-- The wording of a fault; `noun` says what the object would be. -/
def Fault.message (noun : String) : Fault → String
  | .encoding fault => fault.message
  | .json fault => fault.message
  | .notObject => noun ++ " must be a JSON object"

/-- Whether values are nested too deeply. -/
def Fault.isTooDeep : Fault → Bool
  | .json (.tooDeep _) => true
  | _ => false

def noValueMessage : String := "'NoneType' object has no attribute 'decode'"

/-- The fields of the object that octets hold. -/
def decode [Limits] (octets : Bytes) : Except Fault (List (Text × Value)) := do
  let text ← (Utf8.decode octets).mapError .encoding
  match ← (Json.read text).mapError .json with
  | .object fields => return fields
  | _ => throw .notObject

end Wire

end LiveFeed
