/-
What lies outside the programs: the broker that carries their messages, the metrics server, chance
and sleep.  A program is a function that takes what the outside hands out and leaves a record of
what it has asked for.
-/
import LiveFeed.Value.Basic

namespace LiveFeed

/-- The settings of a client of the broker. -/
abbrev Settings := List (Text × Value)

/-- What a program asks of the outside. -/
inductive Action where
  /-- Starts a client that receives, sends or administers. -/
  | consumer (settings : Settings)
  | producer (settings : Settings)
  | admin (settings : Settings)
  /-- Creates topics, each with this many partitions and replicas. -/
  | create (topics : List Text) (partitions replicas : Nat)
  /-- Asks for the messages of a topic; without a topic for those of none. -/
  | subscribe (topic : Option Text)
  | produce (topic key text : Text)
  | flush
  | close
  | metricsServer (port : Option Int)
  | sleep (seconds : Float)
  /-- Draws from an interval. -/
  | uniform (low high : Nat)
  /-- Draws from a bell curve. -/
  | gauss (mean : Nat) (deviation : Float)
  | choice (items : List Text)

/-- What asking the broker for a message gives. -/
inductive Poll where
  | nothing
  | failure (code : Int) (text : Text)
  | message (value : Option Bytes)
deriving Repr, DecidableEq

/-- The code of the error that only says that no more messages are there yet. -/
def Poll.endOfPartition : Int := -191

/-- What has been asked of the outside. -/
structure Outside where
  /-- The actions, newest first. -/
  actions : List Action
  /-- How many messages the broker was asked to send. -/
  attempts : Nat
  /-- The attempts at which its queue is full, counted from zero. -/
  refusals : List Nat
  /-- How often the broker was asked to deliver what it has queued. -/
  deliveries : Nat

namespace Outside

/-- Nothing has been asked yet. -/
def start (refusals : List Nat) : Outside := ⟨[], 0, refusals, 0⟩

def record (action : Action) (o : Outside) : Outside := { o with actions := action :: o.actions }

/-- The wording for a message that cannot be queued. -/
def queueFullMessage : String := "Local: Queue full"

/-- Sends a message, unless the queue is full. -/
def send? (topic key text : Text) (o : Outside) : Option Outside :=
  if o.refusals.contains o.attempts then none
  else some { o with
    actions := .produce topic key text :: o.actions
    attempts := o.attempts + 1
    deliveries := o.deliveries + 1 }

end Outside

/-- The value of a setting; one that was given without a value is an empty list. -/
def Settings.value : Option Text → Value
  | some text => .str text
  | none => .list []

/-- The settings of a client that sends or administers. -/
def Settings.ofServers (servers : Option Text) : Settings :=
  [("bootstrap.servers", value servers)]

/-- The settings of a client that receives as a member of a group, from the oldest message on. -/
def Settings.ofGroup (servers group : Option Text) : Settings :=
  [("bootstrap.servers", value servers), ("group.id", value group),
    ("auto.offset.reset", .str "earliest"), ("enable.auto.commit", .bool true)]

/-- The lines that a program has written, newest first. -/
structure Output where
  printed : List Text
  /-- The lines about what went wrong. -/
  reported : List Text
deriving Repr, DecidableEq

namespace Output

/-- Nothing has been written. -/
def empty : Output := ⟨[], []⟩

def print (line : Text) (o : Output) : Output := { o with printed := line :: o.printed }

/-- Writes a line about what went wrong. -/
def report (line : Text) (o : Output) : Output := { o with reported := line :: o.reported }

end Output

/-- The servers that programs turn to unless told otherwise. -/
def defaultServers : Text := "localhost:9092"

/-- The file that holds the configuration unless another one is named. -/
def defaultConfigFile : Text := "config/oracle.yml"

end LiveFeed
