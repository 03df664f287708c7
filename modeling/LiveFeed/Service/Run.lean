/-
The feed service: it takes requests from one topic, applies them to a feed in the order in which
they come, and publishes what becomes of them on another topic.
-/
import LiveFeed.Request.Message
import LiveFeed.Service.Options
import LiveFeed.StateFile

namespace LiveFeed

/-- What asking for a message gave, and the time that the clock shows from then on, in seconds. -/
structure Arrival where
  seconds : Option Value
  poll : Poll

namespace Service

/-- A service at work. -/
structure State where
  desk : Desk Outside
  tree : FileTree
  output : Output
  /-- How many messages have come, and how many of them were accepted pushes or refused. -/
  consumed : Nat
  emitted : Nat
  rejected : Nat

/-- Why the name of a topic cannot be handed to the broker. -/
inductive TopicFault where
  | halves (fault : Utf8.Unpaired)
  | embeddedNull

def TopicFault.message : TopicFault → String
  | .halves fault => fault.message
  | .embeddedNull => "embedded null character"

/-- Why a service stops before its time. -/
inductive Fault where
  | arguments (fault : CommandLine.Fault)
  | config (fault : Config.Fault)
  | stateFile (fault : StateFile.ReadFault)
  /-- The lifetime is missing after its switch. -/
  | noLifetime
  /-- A topic has a name that cannot be handed to the broker. -/
  | topicName (fault : TopicFault)
  /-- A topic cannot be created. -/
  | topic (text : Text)
  /-- The lifetime has too many digits to be told. -/
  | lifetimeTooLong
  /-- A line about the start cannot be shown. -/
  | unprinted (fault : Utf8.Unpaired)
  | noValue
  /-- A message holds values that are nested too deeply. -/
  | message (fault : Wire.Fault)
  | request (fault : Desk.Fault)
  | feed (fault : Feed.Fault)
  | save (fault : StateFile.WriteFault)

def Fault.message? [Limits] : Fault → Option Text
  | .arguments fault => some fault.message
  | .config fault => fault.message?
  | .stateFile fault => some fault.message
  | .noLifetime => some "'<=' not supported between instances of 'list' and 'int'"
  | .topicName fault => some fault.message
  | .topic text => some text
  | .lifetimeTooLong => some Digits.unwritten
  | .unprinted fault => some fault.message
  | .noValue => some Wire.noValueMessage
  | .message fault => some (fault.message "request")
  | .request fault => some fault.message
  | .feed fault => some fault.message
  | .save fault => some fault.message

/-- A step that keeps what it has done when it fails. -/
abbrev Act := EStateM Fault State

variable [Limits]

/-- Asks something of the outside. -/
def ask (action : Action) : Act Unit :=
  modify fun s =>
    { s with desk.session.world := s.desk.session.world.record action }

def print (line : Text) : Act Unit := modify fun s => { s with output := s.output.print line }

/-- Writes a line that holds what was given from outside, if it can be shown. -/
def display (line : Text) : Act Unit :=
  match Limits.unprinted? line with
  | some fault => throw (.unprinted fault)
  | none => print line

/-- Writes a line about what went wrong. -/
def report (line : Text) : Act Unit := modify fun s => { s with output := s.output.report line }

/-- Runs an operation of the feed. -/
def onFeed {α : Type} (act : EStateM Feed.Fault (Session Outside) α) : Act α := fun s =>
  match act s.desk.session with
  | .ok a session => .ok a { s with desk.session := session }
  | .error fault session => .error (.feed fault) { s with desk.session := session }

/-- Sends a message about an outcome. -/
def publishTo (config : Config) (message : Value) (outside : Outside) :
    Except Feed.Fault Outside := do
  let text ← (Json.text? message).mapError .unwritable
  match outside.send? config.eventsTopic config.authority text with
  | some outside => return outside
  | none => throw .queueFull

/-- Publishes the events that the subscriber of the service is told of. -/
def listener (config : Config) : Listener Outside := fun note outside =>
  match note with
  | .told _ event => publishTo config (Message.emitted event) outside
  | _ => .ok outside

def publish (config : Config) (message : Value) : Act Unit := fun s =>
  match publishTo config message s.desk.session.world with
  | .ok world => .ok () { s with desk.session.world := world }
  | .error fault => .error (.feed fault) s

/-- Whether a fault is one of the request, which is then skipped.  A clock that shows what cannot be
a number counts as one as well, and so do numbers that have too many digits to be told. -/
def isMalformed : Desk.Fault → Bool
  | .unknownCall _ | .noData | .notHex _ => true
  | .wordlessCall cause | .feed (.wordless cause) | .feed (.log (.wordless cause)) =>
      cause == .tooLong
  | .feed (.clock fault) => fault.isOfValue
  | .feed (.unwritable .tooLong) => true
  | .feed _ => false

def skip (reason : Text) : Act Unit := do
  modify fun s => { s with desk.metrics := s.desk.metrics.countError }
  report ("Malformed request skipped: " ++ reason)

/-- Saves the log to the state file, if there is one. -/
def save (options : Options) : Act Unit := do
  match options.stateFile with
  | none => return
  | some path =>
      let s ← get
      match StateFile.persist path s.desk.session.feed (s.desk.metrics, s.tree) with
      | .ok failure (metrics, tree) =>
          set { s with desk.metrics := metrics, tree }
          failure.forM report
      | .error fault (metrics, tree) =>
          set { s with desk.metrics := metrics, tree }
          throw (.save fault)

/-- A text with spaces behind it up to a width. -/
def padded (width : Nat) (text : String) : Text :=
  text ++ String.ofList (List.replicate (width - text.length) ' ')

/-- Counts an outcome, and publishes a refusal; an accepted push has been published already. -/
def announce (config : Config) (outcome : Outcome) : Act Unit := do
  match outcome with
  | .emitted _ => modify fun s => { s with emitted := s.emitted + 1 }
  | .cleaned _ => return
  | .rejected call reason _ =>
      publish config outcome.message
      modify fun s => { s with rejected := s.rejected + 1 }
      print ("REJECTED  call=" ++ padded 20 call.name ++ " error=" ++ reason.name)

/-- How far the service has come. -/
def State.text (s : State) : Text :=
  toString s.consumed ++ " requests consumed, " ++ toString s.emitted ++ " emitted, " ++
    toString s.rejected ++ " rejected"

/-- How many messages lie between two lines about the progress. -/
def progressInterval : Nat := 500

/-- Counts what readers see now. -/
def gauge : Act Unit := do
  let live ← onFeed Session.read
  modify fun s => { s with desk.metrics.live := (live.getD []).length }

/-- Deals with an outcome. -/
def conclude (options : Options) (config : Config) (outcome : Outcome) : Act Unit := do
  if outcome.isAccepted then save options
  announce config outcome
  gauge
  let s ← get
  if s.consumed % progressInterval = 0 then print ("  ... " ++ s.text)

def apply (options : Options) (config : Config) (request : List (Text × Value)) : Act Unit := do
  let s ← get
  match Desk.handle (listener config) request s.desk with
  | .ok outcome desk =>
      set { s with desk }
      conclude options config outcome
  | .error fault desk =>
      set { s with desk }
      if isMalformed fault then skip fault.message else throw (.request fault)

/-- Takes in a message. -/
def consume (options : Options) (config : Config) (value : Option Bytes) : Act Unit := do
  modify fun s => { s with consumed := s.consumed + 1 }
  match value with
  | none => throw .noValue
  | some octets =>
      match Wire.decode octets with
      | .error fault =>
          if fault.isTooDeep then throw (.message fault) else skip (fault.message "request")
      | .ok request => apply options config request

/-- Sets the clock, if an arrival says so. -/
def setClock (seconds : Option Value) : Act Unit :=
  match seconds with
  | none => return
  | some seconds =>
      modify fun s => { s with desk.session.clock := s.desk.session.clock.setSeconds seconds }

/-- Takes in what asking for a message gave. -/
def step (options : Options) (config : Config) (arrival : Arrival) : Act Unit := do
  setClock arrival.seconds
  match arrival.poll with
  | .nothing => return
  | .failure code text =>
      if code = Poll.endOfPartition then return
      else
        modify fun s => { s with desk.metrics := s.desk.metrics.countError }
        report ("Consumer error: " ++ text)
  | .message value => consume options config value

/-- Serves until no more messages come. -/
def serve (options : Options) (config : Config) : List Arrival → Act Unit
  | [] => do
      print ""
      print "Shutting down feed service..."
  | arrival :: rest => do
      step options config arrival
      serve options config rest

/-- Ends the work and sums up. -/
def finish : Act Unit := do
  ask .flush
  ask .close
  print ("Done. " ++ (← get).text ++ ".")

/-- The line that says what was restored. -/
def restoredLine (path : Text) (live : Option (List Bytes)) : Text :=
  "Restored state from " ++ path ++ "  live=" ++
    match live with
    | some payloads => toString payloads.length
    | none => "none"

/-- Restores the log from the state file, if there is one. -/
def restore (options : Options) : Act Unit := do
  match options.stateFile with
  | none => return
  | some path =>
      match StateFile.read (← get).tree path with
      | .error fault => throw (.stateFile fault)
      | .ok snapshot =>
          onFeed (Session.load snapshot)
          let live ← onFeed Session.read
          display (restoredLine path live)

/-- Tells what came of creating a topic.  `failure` is what the broker says when it has not. -/
def tellTopic (topic : Text) (failure : Option Text) : Act Unit :=
  match failure with
  | none => print ("Created topic '" ++ topic ++ "'")
  | some text =>
      if text.contains "TOPIC_ALREADY_EXISTS" then print ("Topic '" ++ topic ++ "' already exists")
      else throw (.topic text)

/-- Refuses a name that cannot be handed to the broker. -/
def checkTopic (topic : Text) : Act Unit :=
  match Utf8.unpaired? CodePoint.isHalf topic with
  | some fault => throw (.topicName (.halves fault))
  | none =>
      if topic.points.contains (.char '\x00') then throw (.topicName .embeddedNull) else return

/-- Creates the topics, which may be there already.  Each of them is told of once. -/
def createTopics (options : Options) (failures : List (Text × Text)) (topics : List Text) :
    Act Unit := do
  ask (.admin (Settings.ofServers options.servers))
  topics.forM checkTopic
  ask (.create topics 1 3)
  topics.eraseDups.forM fun topic =>
    tellTopic topic ((failures.find? (·.1 = topic)).map (·.2))

/-- The line that says how a service was started. -/
def startLine (config : Config) : Text :=
  "Feed service started  requests=" ++ config.requestsTopic ++ "  events=" ++ config.eventsTopic ++
    "  authority=" ++ config.authority ++ "  lifetime_ms=" ++ toString config.lifetime

def connect (options : Options) (config : Config) (failures : List (Text × Text)) :
    Act Unit := do
  ask (.metricsServer options.metricsPort)
  createTopics options failures [config.requestsTopic, config.eventsTopic]
  ask (.consumer (Settings.ofGroup options.servers options.group))
  ask (.subscribe (some config.requestsTopic))
  ask (.producer (Settings.ofServers options.servers))
  modify fun s => { s with desk.session.feed := s.desk.session.feed.subscribe .record }
  if !Digits.fit config.lifetime then throw .lifetimeTooLong
  display (startLine config)

/-- Reads the arguments and the configuration. -/
def configure (arguments : List Text) : Act (Options × Config) := do
  match Options.grammar.read Options.default arguments with
  | .error fault => throw (.arguments fault)
  | .ok options =>
      match Config.load (← get).tree options.configFile with
      | .error fault => throw (.config fault)
      | .ok config =>
          match options.override config with
          | .error .noLifetime => throw .noLifetime
          | .error .lifetimeNotPositive =>
              throw (.arguments (.refused "--lifetime-ms must be positive"))
          | .ok config => return (options, config)

/-- A service that has just been started.  Its feed gets authority and lifetime from the
configuration. -/
def State.start (tree : FileTree) (seconds : Value) (refusals : List Nat) : State where
  desk := ⟨⟨Feed.new "" (.int 0), Clock.ofSeconds seconds, Outside.start refusals⟩, Metrics.zero⟩
  tree := tree
  output := Output.empty
  consumed := 0
  emitted := 0
  rejected := 0

/-- Gives the service the feed of a configuration. -/
def openFeed (config : Config) : Act Unit :=
  modify fun s =>
    { s with desk.session.feed := Feed.new config.authority (.int config.lifetime) }

/-- Runs a service to its end.  Once it is serving it sums up also when it stops before its time. -/
def run (arguments : List Text) (failures : List (Text × Text)) (arrivals : List Arrival) :
    Act Unit := do
  let (options, config) ← configure arguments
  openFeed config
  restore options
  connect options config failures
  tryCatch (serve options config arrivals) fun fault => do
    finish
    throw fault
  finish

end Service
end LiveFeed
