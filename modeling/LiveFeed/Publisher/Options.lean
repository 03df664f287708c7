/-
The arguments of a publisher.
-/
import LiveFeed.CommandLine
import LiveFeed.Outside

namespace LiveFeed.Publisher

/-- How readings are streamed. -/
structure Streaming where
  /-- The number of requests in a second. -/
  rate : Option Float
  feeds : List Text
  /-- A cleanup follows every so many readings; none if this is zero. -/
  cleanEvery : Int
deriving Repr

/-- What a publisher is asked to do. -/
inductive Command where
  | push (payloads : List Text)
  /-- To ask for a cleanup. -/
  | clean
  /-- To push readings until it is stopped. -/
  | stream (streaming : Streaming)
deriving Repr

/-- The options of a publisher. -/
structure Options where
  configFile : Option Text
  servers : Option Text
  /-- The origin in place of the configured authority. -/
  origin : Option Text
  /-- Whether pushes carry no origin. -/
  unsigned : Bool
  command : Command
deriving Repr

/-- The streaming without arguments. -/
def Streaming.default : Streaming := ⟨some 1, ["eth-usd", "btc-usd"], 100⟩

def Streaming.grammar : CommandLine.Grammar Streaming where
  switches :=
    [.help,
      .decimal "--rate" fun rate s => { s with rate },
      .texts "--feeds" fun feeds s => { s with feeds },
      .whole "--clean-every" fun cleanEvery s => { s with cleanEvery := cleanEvery.getD 0 }]
  operand := none

/-- The arguments of `push`. -/
def payloadGrammar : CommandLine.Grammar (List Text) where
  switches := [.help]
  operand := some (.several "payloads" fun payloads _ => payloads)

def cleanGrammar : CommandLine.Grammar Unit where
  switches := [.help]
  operand := none

namespace Options

/-- The options without arguments; a command is always given. -/
def default : Options :=
  ⟨some defaultConfigFile, some defaultServers, none, false, .clean⟩

def readCommand {α : Type} (grammar : CommandLine.Grammar α) (start : α) (command : α → Command)
    (arguments : List Text) (options : Options) :
    Except CommandLine.Fault (Options × List Text) := do
  let (read, extras) ← grammar.readKnown start arguments
  return ({ options with command := command read }, extras)

/-- The commands and how their arguments are read. -/
def commands :
    List (Text × (List Text → Options → Except CommandLine.Fault (Options × List Text))) :=
  [("push", readCommand payloadGrammar [] .push),
    ("clean", readCommand cleanGrammar () fun _ => .clean),
    ("stream", readCommand Streaming.grammar Streaming.default .stream)]

/-- The arguments of a publisher. -/
def grammar : CommandLine.Grammar Options where
  switches :=
    [.help,
      .text "--config" fun configFile o => { o with configFile },
      .text "--bootstrap-servers" fun servers o => { o with servers },
      .text "--origin" fun origin o => { o with origin },
      .flag "--unsigned" fun o => { o with unsigned := true }]
  operand := some (.command "command" commands)

/-- The origin that every push carries: none if they are unsigned, else the given one unless it is
empty, else the authority. -/
def originOf (options : Options) (authority : Text) : Value :=
  if options.unsigned then .null
  else match options.origin with
    | some origin => .str (if origin.isEmpty then authority else origin)
    | none => .str authority

end Options
end LiveFeed.Publisher
