/-
The watcher: it shows the events of a feed as they come in and counts them.
-/
import LiveFeed.CommandLine
import LiveFeed.Outside
import LiveFeed.Request.Message
import LiveFeed.Watcher.Sighting

namespace LiveFeed

/-- How many events of each kind have been seen. -/
structure Tally where
  emitted : Nat
  rejected : Nat
  malformed : Nat
deriving Repr, DecidableEq

namespace Tally

/-- Nothing has been seen. -/
def zero : Tally := ⟨0, 0, 0⟩

def count (t : Tally) (sighting : Sighting) : Tally :=
  if sighting.isRejected then { t with rejected := t.rejected + 1 }
  else { t with emitted := t.emitted + 1 }

/-- Counts a message that tells of no event. -/
def countMalformed (t : Tally) : Tally := { t with malformed := t.malformed + 1 }

/-- The line that sums up. -/
def text (t : Tally) : String :=
  "Done. " ++ toString t.emitted ++ " emitted, " ++ toString t.rejected ++ " rejected, " ++
    toString t.malformed ++ " malformed."

end Tally

namespace Watcher

/-- The options of a watcher. -/
structure Options where
  servers : Option Text
  topic : Option Text
  group : Option Text
  /-- Whether only refused requests are shown. -/
  rejectedOnly : Bool
deriving Repr, DecidableEq

namespace Options

/-- The options without arguments. -/
def default : Options :=
  ⟨some defaultServers, some "oracle-events", some "oracle-watcher", false⟩

/-- The arguments of a watcher. -/
def grammar : CommandLine.Grammar Options where
  switches :=
    [.help,
      .text "--bootstrap-servers" fun servers o => { o with servers },
      .text "--topic" fun topic o => { o with topic },
      .text "--group-id" fun group o => { o with group },
      .flag "--rejected-only" fun o => { o with rejectedOnly := true }]
  operand := none

end Options

/-- A watcher at work. -/
structure State where
  outside : Outside
  output : Output
  tally : Tally

/-- A watcher that has just been started. -/
def State.start : State := ⟨Outside.start [], Output.empty, Tally.zero⟩

/-- Why a watcher stops before its time. -/
inductive Fault where
  | arguments (fault : CommandLine.Fault)
  | noValue
  /-- A message holds values that are nested too deeply. -/
  | tooDeep (nest : Json.Nest)
deriving Repr, DecidableEq

def Fault.message : Fault → Text
  | .arguments fault => fault.message
  | .noValue => Wire.noValueMessage
  | .tooDeep nest => (Json.Fault.tooDeep nest).message

/-- A step that keeps what it has done when it fails. -/
abbrev Act := EStateM Fault State

/-- Why a message tells of no event. -/
inductive Malformed where
  | wire (fault : Wire.Fault)
  | event (fault : Sighting.Fault)
deriving Repr

/-- The wording of what keeps a message from telling of an event. -/
def Malformed.message : Malformed → String
  | .wire fault => fault.message "event"
  | .event fault => fault.message

variable [Limits]

/-- The event that a message tells of. -/
def sight (octets : Bytes) : Except Malformed Sighting := do
  let fields ← (Wire.decode octets).mapError .wire
  (Sighting.ofFields fields).mapError .event

/-- Asks something of the outside. -/
def ask (action : Action) : Act Unit :=
  modify fun s => { s with outside := s.outside.record action }

def print (line : Text) : Act Unit := modify fun s => { s with output := s.output.print line }

/-- Writes a line about what went wrong. -/
def report (line : Text) : Act Unit := modify fun s => { s with output := s.output.report line }

/-- Takes note of a message. -/
def note (options : Options) (octets : Bytes) : Act Unit :=
  match sight octets with
  | .error (.wire (.json (.tooDeep nest))) => throw (.tooDeep nest)
  | .error fault => do
      modify fun s => { s with tally := s.tally.countMalformed }
      report ("Skipping malformed event: " ++ fault.message)
  | .ok sighting => do
      modify fun s => { s with tally := s.tally.count sighting }
      if !options.rejectedOnly || sighting.isRejected then print sighting.line

/-- Takes note of what asking for a message gave. -/
def step (options : Options) (poll : Poll) : Act Unit :=
  match poll with
  | .nothing => return
  | .failure code text =>
      if code = Poll.endOfPartition then return else report ("Consumer error: " ++ text)
  | .message none => throw .noValue
  | .message (some octets) => note options octets

/-- Watches until no more messages come. -/
def watch (options : Options) : List Poll → Act Unit
  | [] => do
      print ""
      print "Shutting down watcher..."
  | poll :: rest => do
      step options poll
      watch options rest

/-- Sums up. -/
def finish : Act Unit := do
  ask .close
  print (← get).tally.text

/-- Runs a watcher to its end.  It sums up also when it stops before its time. -/
def run (arguments : List Text) (polls : List Poll) : Act Unit := do
  match Options.grammar.read Options.default arguments with
  | .error fault => throw (.arguments fault)
  | .ok options =>
      ask (.consumer (Settings.ofGroup options.servers options.group))
      ask (.subscribe options.topic)
      tryCatch (watch options polls) fun fault => do
        finish
        throw fault
      finish

end Watcher
end LiveFeed
