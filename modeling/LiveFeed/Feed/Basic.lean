/-
A feed: one authority may write, everybody may read and clean up, and subscribers are told of every
accepted push before it is stored.

The log is absent until the first accepted push or cleanup, so that readers can tell a feed that was
never written from one whose entries have all expired.
-/
import LiveFeed.Clock
import LiveFeed.Json.Writer
import LiveFeed.Log.Snapshot
import LiveFeed.Outside

namespace LiveFeed

/-- What subscribers are told about an accepted push. -/
structure Event where
  data : Bytes
  recordedAt : Value
deriving Repr, Inhabited

/-- A reason for which a feed refuses a request, as it is called in messages and metrics. -/
structure Reason where
  name : String
deriving Repr, DecidableEq

namespace Reason

def badOrigin : Reason := ⟨"BadOrigin"⟩

def wrongAuthority : Reason := ⟨"WrongAuthority"⟩

def stale : Reason := ⟨"StaleInsertionTime"⟩

end Reason

/-- What a subscriber fails with. -/
inductive Raised where
  /-- An error of its own. -/
  | error
  /-- An error that counts as a refusal by the feed, for a reason that may be a new one. -/
  | refusal (reason : Reason) (detail : String)
deriving Repr, DecidableEq

/-- What a subscriber does once it has taken note of an event. -/
inductive Reaction where
  /-- Nothing more. -/
  | record
  /-- Fails; with a payload given, only at events with that payload. -/
  | fail (only : Option Bytes) (raised : Raised)
  | read
  /-- Cleans the feed up. -/
  | clean
  /-- Drops the log of the feed. -/
  | reset
  /-- Pushes a payload in the name of the authority. -/
  | push (data : Bytes)
  /-- Registers one more subscriber, which only takes note. -/
  | enrol
deriving Repr, DecidableEq

/-- A feed and those who have subscribed to it, in the order of registration. -/
structure Feed where
  authority : Text
  lifetime : Value
  log : Option Log
  subscribers : List Reaction
  /-- How many pushes all subscribers may make while one push from outside is delivered. -/
  reentrantPushes : Nat
deriving Repr

namespace Feed

/-- Why a feed refuses an operation, or why it is broken off. -/
inductive Fault where
  /-- The push carries no signer. -/
  | noOrigin
  /-- The push is signed by someone else than the authority. -/
  | wrongAuthority (origin : Value)
  /-- The same, but the refusal, which names the signer, cannot be put in words. -/
  | wordless (cause : Value.Wordless)
  | log (fault : Log.Fault)
  | snapshot (fault : Snapshot.Fault)
  | clock (fault : Clock.Fault)
  | subscriber (number : Nat) (raised : Raised)
  /-- The event could not be handed on. -/
  | queueFull
  /-- The event has no text to be handed on. -/
  | unwritable (problem : Json.Unwritable)
deriving Repr

def Fault.message [Limits] : Fault → String
  | .noOrigin => "push_data requires a signed origin"
  | .wrongAuthority origin => origin.quoted ++ " is not the feed authority"
  | .wordless cause => cause.message
  | .log fault => fault.message
  | .snapshot fault => fault.message
  | .clock fault => fault.message
  | .subscriber number .error => "subscriber " ++ toString number ++ " failed"
  | .subscriber _ (.refusal _ detail) => detail
  | .queueFull => Outside.queueFullMessage
  | .unwritable problem => problem.message

/-- The reason for which a feed refuses a request; a fault of any other kind is no refusal. -/
def Fault.reason? : Fault → Option Reason
  | .noOrigin => some .badOrigin
  | .wrongAuthority _ => some .wrongAuthority
  | .log (.stale ..) => some .stale
  | .subscriber _ (.refusal reason _) => some reason
  | _ => none

/-- A feed without log and subscribers. -/
def new (authority : Text) (lifetime : Value) : Feed := ⟨authority, lifetime, none, [], 0⟩

/-- Registers a subscriber after all others. -/
def subscribe (feed : Feed) (reaction : Reaction) : Feed :=
  { feed with subscribers := feed.subscribers ++ [reaction] }

/-- What a push is refused with that someone else has signed. -/
def Fault.ofOrigin [Limits] (origin : Value) : Fault :=
  match origin.wordless? with
  | some cause => .wordless cause
  | none => .wrongAuthority origin

/-- Lets only the authority pass. -/
def authorise [Limits] (authority : Text) (origin : Value) : Except Fault Unit :=
  match origin with
  | .null => .error .noOrigin
  | origin => if origin.same (.str authority) then .ok () else .error (.ofOrigin origin)

/-- The snapshot of the log, null when there is none. -/
def snapshot (feed : Feed) : Value :=
  match feed.log with
  | some log => Snapshot.encode log
  | none => .null

/-- Replaces the log by one rebuilt from a snapshot, under the lifetime of the feed. -/
def load (feed : Feed) (snapshot : Value) : Except Fault Feed :=
  match snapshot with
  | .null => .ok { feed with log := none }
  | snapshot => do
      let log ← (Snapshot.decode snapshot (some feed.lifetime)).mapError .snapshot
      return { feed with log := some log }

end Feed
end LiveFeed
