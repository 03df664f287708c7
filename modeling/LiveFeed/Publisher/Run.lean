/-
The publisher: it sends requests to the topic that a feed service takes them from.
-/
import LiveFeed.Config
import LiveFeed.Json.Writer
import LiveFeed.Publisher.Options
import LiveFeed.Publisher.Readings
import LiveFeed.Request.Message

namespace LiveFeed.Publisher

/-- A publisher at work. -/
structure State where
  outside : Outside
  output : Output
  chance : Chance
  prices : Prices
  /-- The number of pushes, or of cleanups that were asked for by a command. -/
  count : Nat

/-- A publisher that has just been started. -/
def State.start (refusals : List Nat) (chance : Chance) : State :=
  ⟨Outside.start refusals, Output.empty, chance, [], 0⟩

/-- Why a publisher stops before its time. -/
inductive Fault where
  | arguments (fault : CommandLine.Fault)
  | config (fault : Config.Fault)
  | queueFull
  /-- A payload or the authority has no octets. -/
  | encoding (halves : Utf8.Unpaired)
  /-- A request has no text. -/
  | unwritable (problem : Json.Unwritable)
  /-- The rate of a stream is missing after its switch. -/
  | noRate
  | zeroRate
  | noFeeds
  | reading (fault : Prices.Fault)
  /-- The line about a stream cannot be shown. -/
  | unprinted (fault : Utf8.Unpaired)
  /-- The time between two readings cannot be slept. -/
  | unslept (fault : Sleep.Fault)
deriving Repr, DecidableEq

def Fault.message? : Fault → Option Text
  | .arguments fault => some fault.message
  | .config fault => fault.message?
  | .queueFull => some Outside.queueFullMessage
  | .encoding halves => some halves.message
  | .unwritable problem => some problem.message
  | .noRate => some "unsupported operand type(s) for /: 'float' and 'list'"
  | .zeroRate => some "float division by zero"
  | .noFeeds => some "integer modulo by zero"
  | .reading fault => some fault.message
  | .unprinted fault => some fault.message
  | .unslept fault => some fault.message

/-- A step that keeps what it has done when it fails. -/
abbrev Act := EStateM Fault State

variable [Limits]

/-- Asks something of the outside. -/
def ask (action : Action) : Act Unit :=
  modify fun s => { s with outside := s.outside.record action }

def print (line : Text) : Act Unit := modify fun s => { s with output := s.output.print line }

/-- Writes a line that holds what was given from outside, if it can be shown. -/
def display (line : Text) : Act Unit :=
  match Limits.unprinted? line with
  | some fault => throw (.unprinted fault)
  | none => print line

/-- Sleeps, if the time can be slept. -/
def wait (seconds : Float) : Act Unit :=
  match Limits.unslept? seconds with
  | some fault => throw (.unslept fault)
  | none => ask (.sleep seconds)

def octetsOf (text : Text) : Act Bytes :=
  match Utf8.encodeText text with
  | .ok octets => return octets
  | .error halves => throw (.encoding halves)

def send (config : Config) (request : Value) : Act Unit := do
  let _ ← octetsOf config.authority
  match Json.text? request with
  | .error problem => throw (.unwritable problem)
  | .ok text =>
      let s ← get
      match s.outside.send? config.requestsTopic config.authority text with
      | some outside => set { s with outside }
      | none => throw .queueFull

def countOne : Act Unit := modify fun s => { s with count := s.count + 1 }

def sendPush (config : Config) (origin : Value) (payload : Bytes) : Act Unit := do
  send config (Message.pushRequest origin payload)
  countOne

/-- Draws one of several feeds. -/
def chooseFeed (feeds : List Text) : Act Text := do
  ask (.choice feeds)
  let s ← get
  match s.chance.drawChoice? feeds with
  | (some feed, chance) =>
      set { s with chance }
      return feed
  | (none, _) => throw .noFeeds

/-- Makes up the next reading of a feed.  A starting price is drawn whether it is needed or not. -/
def nextReading (feed : Text) : Act Bytes := do
  ask (.uniform Prices.startLow Prices.startHigh)
  ask (.gauss Prices.changeMean Prices.changeDeviation)
  let s ← get
  let (start, chance) := s.chance.drawUniform
  let (change, chance) := chance.drawGauss
  match Prices.step feed start change s.prices with
  | .ok reading prices =>
      set { s with chance, prices }
      return reading
  | .error fault prices =>
      set { s with chance, prices }
      throw (.reading fault)

/-- How many readings lie between two lines about the progress. -/
def progressInterval : Nat := 100

/-- Whether a cleanup follows a reading. -/
def cleansAfter (streaming : Streaming) (count : Nat) : Bool :=
  streaming.cleanEvery ≠ 0 && (count : Int) % streaming.cleanEvery = 0

/-- Pushes one reading, and waits. -/
def round (config : Config) (origin : Value) (streaming : Streaming) (delay : Float) :
    Act Unit := do
  let feed ← chooseFeed streaming.feeds
  sendPush config origin (← nextReading feed)
  let count := (← get).count
  if cleansAfter streaming count then send config Message.cleanRequest
  if count % progressInterval = 0 then print ("  ... " ++ toString count ++ " requests sent")
  wait delay

/-- Pushes a number of readings. -/
def rounds (config : Config) (origin : Value) (streaming : Streaming) (delay : Float) :
    Nat → Act Unit
  | 0 => return
  | n + 1 => do
      round config origin streaming delay
      rounds config origin streaming delay n

/-- The line that says what is streamed.  A missing rate is shown as an empty list. -/
def streamLine (config : Config) (streaming : Streaming) : Text :=
  "Streaming " ++ (Value.list (streaming.feeds.map .str)).quoted ++ " to '" ++
    config.requestsTopic ++ "' at ~" ++
    ((streaming.rate.map Value.float).getD (.list [])).quoted ++ " req/sec"

/-- Streams a number of readings, until it is stopped. -/
def stream (config : Config) (origin : Value) (streaming : Streaming) (count : Nat) :
    Act Unit := do
  display (streamLine config streaming)
  match streaming.rate with
  | none => throw .noRate
  | some rate =>
      if rate == 0 then throw .zeroRate
      rounds config origin streaming (1 / rate) count
      print ""
      print "Shutting down publisher..."

/-- Carries out a command; a stream is stopped after a number of readings. -/
def obey (config : Config) (origin : Value) (streamed : Nat) (command : Command) : Act Unit := do
  match command with
  | .push payloads => payloads.forM fun payload => do sendPush config origin (← octetsOf payload)
  | .clean =>
      send config Message.cleanRequest
      countOne
  | .stream streaming => stream config origin streaming streamed

/-- The settings of the client that sends. -/
def settings (options : Options) : Settings :=
  let own : Settings := [("acks", .str "all"), ("client.id", .str "oracle-publisher")]
  Settings.ofServers options.servers ++ own

/-- Runs a publisher to its end; a stream is stopped after a number of readings. -/
def run (arguments : List Text) (tree : FileTree) (streamed : Nat) : Act Unit := do
  match Options.grammar.read Options.default arguments with
  | .error fault => throw (.arguments fault)
  | .ok options =>
      match Config.load tree options.configFile with
      | .error fault => throw (.config fault)
      | .ok config =>
          ask (.producer (settings options))
          obey config (options.originOf config.authority) streamed options.command
          ask .flush
          print ("Done. " ++ toString (← get).count ++ " requests sent.")

end LiveFeed.Publisher
