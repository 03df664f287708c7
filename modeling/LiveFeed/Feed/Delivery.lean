/-
Operations of a feed while a push is delivered.

A push is admitted, told to every subscriber, and stored only when all of them have returned.  In
between a subscriber may itself use the feed.  A push therefore holds the log that it found when it
was admitted, or a new one if the feed had none, and stores into that one: `Delivery.logs` are the
logs in use, and `Delivery.shown` says which of them the feed shows.  Pushes that found the same log
store into the same log; one that found none replaces whatever log has appeared since.
-/
import LiveFeed.Feed.Basic

namespace LiveFeed

/-- What subscribers leave behind: the event they were told, or what the feed answered them.  Each
subscriber is named by its number in the order of registration. -/
inductive Note where
  | told (number : Nat) (event : Event)
  | read (number : Nat) (payloads : Option (List Bytes))
  | cleaned (number : Nat) (count : Nat)
deriving Repr

/-- What becomes of notes in surroundings of type `ω`, which may refuse one. -/
abbrev Listener (ω : Type) := Note → ω → Except Feed.Fault ω

/-- A feed in the middle of an operation. -/
structure Delivery (ω : Type) where
  authority : Text
  lifetime : Value
  logs : List Log
  /-- The position of the log that the feed shows. -/
  shown : Option Nat
  clock : Clock
  subscribers : List Reaction
  /-- How many pushes subscribers may still make. -/
  pushesLeft : Nat
  world : ω

namespace Delivery

variable {ω : Type} [Limits]

/-- A step that keeps what it has done when it fails. -/
abbrev Act (ω : Type) := EStateM Feed.Fault (Delivery ω)

/-- The log that the feed shows. -/
def log? (d : Delivery ω) : Option Log :=
  d.shown.bind (d.logs[·]?)

/-- The log at a position; a position without one counts as empty. -/
def logAt (d : Delivery ω) (position : Nat) : Log :=
  d.logs[position]?.getD (Log.empty d.lifetime)

/-- Turns a result into a step. -/
def lift {ε α : Type} (wrap : ε → Feed.Fault) (result : Except ε α) : Act ω α :=
  match result with
  | .ok a => pure a
  | .error fault => throw (wrap fault)

/-- Reads the clock. -/
def consult : Act ω Value := do
  let d ← get
  let (result, clock) := d.clock.read
  set { d with clock }
  lift .clock result

/-- Hands a note to the surroundings. -/
def leave (listener : Listener ω) (note : Note) : Act ω Unit := do
  let d ← get
  let world ← lift id (listener note d.world)
  set { d with world }

/-- The position of the log that a change is made to: the one that is shown, else a new one, which
is not shown yet. -/
def hold : Act ω Nat := do
  let d ← get
  match d.shown with
  | some position => return position
  | none =>
      set { d with logs := d.logs ++ [Log.empty d.lifetime] }
      return d.logs.length

/-- Puts a log in its position and shows it. -/
def store (position : Nat) (log : Log) : Act ω Unit :=
  modify fun d => { d with logs := d.logs.set position log, shown := some position }

/-- The live payloads, oldest first; none when the feed was never written, and then the clock is not
read. -/
def read : Act ω (Option (List Bytes)) := do
  match (← get).log? with
  | none => return none
  | some log =>
      let now ← consult
      return some (← lift .log (log.live now))

/-- Evicts what has expired, and counts it. -/
def clean : Act ω Nat := do
  let now ← consult
  let log := (← get).log?.getD (Log.empty (← get).lifetime)
  let (count, log) ← lift .log (log.evict now)
  store (← hold) log
  return count

/-- Shows no log. -/
def reset : Act ω Unit :=
  modify fun d => { d with shown := none }

/-- Registers a subscriber that only takes note. -/
def enrol : Act ω Unit :=
  modify fun d => { d with subscribers := d.subscribers ++ [.record] }

/-- Lets a subscriber take note of an event and react.  `nested` makes a push on its behalf. -/
def react (listener : Listener ω) (nested : Bytes → Act ω Unit) (event : Event) (number : Nat)
    (reaction : Reaction) : Act ω Unit := do
  leave listener (.told number event)
  match reaction with
  | .record => return
  | .fail none raised => throw (.subscriber number raised)
  | .fail (some payload) raised =>
      if event.data = payload then throw (.subscriber number raised)
  | .read => leave listener (.read number (← read))
  | .clean => leave listener (.cleaned number (← clean))
  | .reset => reset
  | .push data => nested data
  | .enrol => enrol

/-- Tells subscribers of an event one after the other; the first of them has the given number. -/
def tell (listener : Listener ω) (nested : Bytes → Act ω Unit) (event : Event) :
    Nat → List Reaction → Act ω Unit
  | _, [] => return
  | number, reaction :: rest => do
      react listener nested event number reaction
      tell listener nested event (number + 1) rest

/-- Tells all subscribers of an event: those registered when the delivery begins, and then those
that were registered meanwhile.  The latter only take note, so no more can appear. -/
def deliver (listener : Listener ω) (nested : Bytes → Act ω Unit) (event : Event) : Act ω Unit := do
  let present := (← get).subscribers
  tell listener nested event 0 present
  let late := (← get).subscribers.drop present.length
  tell listener (fun _ => return) event present.length (late.map fun _ => .record)

/-- Pushes a payload: admits it, tells the subscribers, stores it. -/
def pushWith (listener : Listener ω) (nested : Bytes → Act ω Unit) (origin data : Value) :
    Act ω Event := do
  lift id (Feed.authorise (← get).authority origin)
  let now ← consult
  let payload ← lift .log (Log.octets data)
  let position ← hold
  lift .log (((← get).logAt position).checkTime now)
  let event : Event := ⟨payload, now⟩
  deliver listener nested event
  let log ← lift .log (((← get).logAt position).push now (.bytes .fixed payload))
  store position log
  return event

/-- Pushes a payload; subscribers may push in turn, nested at most `depth` deep and as long as
pushes are left. -/
def push (listener : Listener ω) : Nat → Value → Value → Act ω Event
  | 0, origin, data => pushWith listener (fun _ => return) origin data
  | depth + 1, origin, data =>
      pushWith listener
        (fun payload => do
          let d ← get
          if 0 < d.pushesLeft then
            set { d with pushesLeft := d.pushesLeft - 1 }
            let _ ← push listener depth (.str d.authority) (.bytes .fixed payload))
        origin data

end Delivery

/-- A feed with its clock and surroundings, between two operations. -/
structure Session (ω : Type) where
  feed : Feed
  clock : Clock
  world : ω

namespace Session

variable {ω : Type} [Limits]

/-- The beginning of an operation. -/
def begin (s : Session ω) : Delivery ω where
  authority := s.feed.authority
  lifetime := s.feed.lifetime
  logs := s.feed.log.toList
  shown := s.feed.log.map fun _ => 0
  clock := s.clock
  subscribers := s.feed.subscribers
  pushesLeft := s.feed.reentrantPushes
  world := s.world

/-- What an operation leaves of a session: the log that is shown in the end and all else. -/
def finish (s : Session ω) (d : Delivery ω) : Session ω where
  feed := { s.feed with log := d.log?, subscribers := d.subscribers }
  clock := d.clock
  world := d.world

/-- Runs an operation from its beginning to its end. -/
def run {α : Type} (act : Delivery.Act ω α) : EStateM Feed.Fault (Session ω) α := fun s =>
  match act s.begin with
  | .ok a d => .ok a (s.finish d)
  | .error fault d => .error fault (s.finish d)

/-- Pushes a payload in the name of an origin. -/
def push (listener : Listener ω) (origin data : Value) : EStateM Feed.Fault (Session ω) Event :=
  fun s => run (Delivery.push listener s.feed.reentrantPushes origin data) s

/-- Evicts what has expired, and counts it.  Anyone may. -/
def clean : EStateM Feed.Fault (Session ω) Nat := run Delivery.clean

/-- The live payloads, oldest first, or none when the feed was never written. -/
def read : EStateM Feed.Fault (Session ω) (Option (List Bytes)) := run Delivery.read

/-- Replaces the log by one rebuilt from a snapshot. -/
def load (snapshot : Value) : EStateM Feed.Fault (Session ω) Unit := fun s =>
  match s.feed.load snapshot with
  | .ok feed => .ok () { s with feed }
  | .error fault => .error fault s

end Session
end LiveFeed
