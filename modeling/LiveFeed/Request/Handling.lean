/-
A request applied to a feed.  A request is an object; whatever keeps it from being understood is a
fault, and a refusal by the feed is an outcome.
-/
import LiveFeed.Feed.Delivery
import LiveFeed.Request.Metrics

namespace LiveFeed

/-- A session of a feed whose requests are counted. -/
structure Desk (ω : Type) where
  session : Session ω
  metrics : Metrics

namespace Desk

variable {ω : Type} [Limits]

/-- Why a request has no outcome. -/
inductive Fault where
  | unknownCall (call : Value)
  /-- The call is unknown and cannot even be put in words. -/
  | wordlessCall (cause : Value.Wordless)
  | noData
  | notHex (position : Nat)
  /-- The feed broke the operation off, which is no refusal. -/
  | feed (fault : Feed.Fault)
deriving Repr

/-- What a request is answered with whose call is unknown. -/
def Fault.ofCall (call : Value) : Fault :=
  match call.wordless? with
  | some cause => .wordlessCall cause
  | none => .unknownCall call

def Fault.message : Fault → String
  | .unknownCall call => "unknown call " ++ call.quoted
  | .wordlessCall cause => cause.message
  | .noData => "push_data needs hex 'data'"
  | .notHex position => Snapshot.notHexMessage position
  | .feed fault => fault.message

/-- A field of a request, null when it is missing. -/
def argument (request : List (Text × Value)) (key : String) : Value :=
  (Value.field? request key).getD .null

def payload (request : List (Text × Value)) : Except Fault Bytes :=
  match argument request "data" with
  | .str text => (Hex.decode text).mapError .notHex
  | _ => .error .noData

/-- A fault of the feed as the outcome of a call, if it is a refusal. -/
def refuse (call : Call) (fault : Feed.Fault) (session : Session ω) (metrics : Metrics) :
    EStateM.Result Fault (Desk ω) Outcome :=
  match fault.reason? with
  | some reason =>
      .ok (.rejected call reason fault.message) ⟨session, metrics.countRejection call reason⟩
  | none => .error (.feed fault) ⟨session, metrics⟩

def push (listener : Listener ω) (origin : Value) (payload : Bytes) :
    EStateM Fault (Desk ω) Outcome := fun desk =>
  match Session.push listener origin (.bytes .fixed payload) desk.session with
  | .ok event session => .ok (.emitted event) { desk with session }
  | .error fault session => refuse .push fault session desk.metrics

def clean : EStateM Fault (Desk ω) Outcome := fun desk =>
  match Session.clean desk.session with
  | .ok count session => .ok (.cleaned count) ⟨session, desk.metrics.countEvicted count⟩
  | .error fault session => refuse .clean fault session desk.metrics

/-- Applies a request.  It is counted as soon as its call is known; the payload is read before the
feed is asked, so that a request to push is malformed whoever has signed it. -/
def handle (listener : Listener ω) (request : List (Text × Value)) :
    EStateM Fault (Desk ω) Outcome := do
  match Call.ofName? (argument request "call") with
  | none => throw (.ofCall (argument request "call"))
  | some call =>
      modify fun desk => { desk with metrics := desk.metrics.countRequest call }
      match call with
      | .clean => clean
      | .push =>
          match payload request with
          | .error fault => throw fault
          | .ok payload => push listener (argument request "origin") payload

end Desk
end LiveFeed
