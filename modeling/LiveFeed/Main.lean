/-
The command line.  The first argument names a program, the others are its own.

Messages come in as lines of standard input, and messages that are sent go out as lines that hold
topic, key and text with tabs between them.  A line may begin with a number of seconds and a tab;
the clock shows that time from then on.  For a publisher each line of input lets a stream go on for
one more reading.
-/
import LiveFeed.Publisher.Run
import LiveFeed.Service.Run
import LiveFeed.Watcher.Run

namespace LiveFeed.Main

/-- A text as it is shown: halves of pairs appear as the replacement character. -/
def shown (text : Text) : String := String.ofList text.chars

/-- The lines of a stream. -/
partial def readLines (stream : IO.FS.Stream) : IO (List String) := do
  let line ← stream.getLine
  if line.isEmpty then return []
  else return (line.dropEndWhile (· == '\n')).toString :: (← readLines stream)

/-- The message in a line, and the time in front of it if there is one. -/
def arrival (line : String) : Arrival :=
  let (time, text) := (line.toList.takeWhile (· != '\t'), line.toList.dropWhile (· != '\t'))
  match text, Numeral.readFloat? (String.ofList time) with
  | _ :: text, some seconds =>
      ⟨some (Value.float seconds), .message (some (Utf8.encode (String.ofList text)))⟩
  | _, _ => ⟨none, .message (some (Utf8.encode line))⟩

/-- The files at paths, as far as there are any. -/
def readFiles : List Text → IO FileTree
  | [] => return FileTree.empty
  | path :: rest => do
      let tree ← readFiles rest
      try
        let content ← IO.FS.readBinFile (shown path)
        return tree.build (Path.ofText path) (.file content.toList)
      catch _ => return tree

/-- Writes the files that are new or have changed. -/
def writeFiles (after before : FileTree) : IO Unit :=
  (after.changedSince before).forM fun (place, content) =>
    IO.FS.writeBinFile (shown (Text.join "/" place)) ⟨content.toArray⟩

/-- Shows what a program has written and sent. -/
def display (output : Output) (outside : Outside) : IO Unit := do
  let out ← IO.getStdout
  let err ← IO.getStderr
  outside.actions.reverse.forM fun
    | .produce topic key text => out.putStrLn (shown (Text.join "\t" [topic, key, text]))
    | _ => return
  output.printed.reverse.forM fun line => out.putStrLn (shown line)
  output.reported.reverse.forM fun line => err.putStrLn (shown line)

/-- The exit code for arguments that are not accepted, with the reason on standard error. -/
def refuse (fault : CommandLine.Fault) : IO UInt32 := do
  match fault with
  | .help => return 0
  | fault =>
      (← IO.getStderr).putStrLn ("error: " ++ shown fault.message)
      return 2

/-- The exit code after a fault, with its wording on standard error. -/
def fail (message : Option Text) : IO UInt32 := do
  (← IO.getStderr).putStrLn ((message.map shown).getD "the configuration is not well formed")
  return 1

open scoped Limits

/-- Runs a feed service. -/
def service (arguments : List Text) : IO UInt32 := do
  let paths := match Service.Options.grammar.read Service.Options.default arguments with
    | .ok options => options.configFile.toList ++ options.stateFile.toList
    | .error _ => []
  let before ← readFiles paths
  let arrivals := (← readLines (← IO.getStdin)).map arrival
  let start := Service.State.start before (.int 0) []
  let (result, s) := match Service.run arguments [] arrivals start with
    | .ok () s => (Except.ok (), s)
    | .error fault s => (Except.error fault, s)
  display s.output s.desk.session.world
  writeFiles s.tree before
  match result with
  | .ok () => return 0
  | .error (.arguments fault) => refuse fault
  | .error fault => fail fault.message?

def watcher (arguments : List Text) : IO UInt32 := do
  let polls := (← readLines (← IO.getStdin)).map fun line => (arrival line).poll
  let (result, s) := match Watcher.run arguments polls Watcher.State.start with
    | .ok () s => (Except.ok (), s)
    | .error fault s => (Except.error fault, s)
  display s.output s.outside
  match result with
  | .ok () => return 0
  | .error (.arguments fault) => refuse fault
  | .error fault => fail (some fault.message)

/-- Numbers from an interval, in hundredths. -/
def randomNumbers (low high : Nat) : Nat → IO (List Value)
  | 0 => return []
  | n + 1 => do
      let hundredths ← IO.rand (100 * low) (100 * high)
      return Value.float (Float.ofNat hundredths / 100) :: (← randomNumbers low high n)

/-- Small changes, as differences of two equal draws. -/
def randomChanges : Nat → IO (List Value)
  | 0 => return []
  | n + 1 => do
      let up ← IO.rand 0 1000
      let down ← IO.rand 0 1000
      let change := (Float.ofNat up - Float.ofNat down) / 1000 * Prices.changeDeviation
      return Value.float change :: (← randomChanges n)

def publisher (arguments : List Text) : IO UInt32 := do
  let paths := match Publisher.Options.grammar.read Publisher.Options.default arguments with
    | .ok options => options.configFile.toList
    | .error _ => []
  let tree ← readFiles paths
  let rounds := (← readLines (← IO.getStdin)).length
  let chance : Chance :=
    ⟨← randomNumbers Prices.startLow Prices.startHigh rounds, ← randomChanges rounds,
      (List.range rounds).map Int.ofNat⟩
  let start := Publisher.State.start [] chance
  let (result, s) := match Publisher.run arguments tree rounds start with
    | .ok () s => (Except.ok (), s)
    | .error fault s => (Except.error fault, s)
  display s.output s.outside
  match result with
  | .ok () => return 0
  | .error (.arguments fault) => refuse fault
  | .error fault => fail fault.message?

end LiveFeed.Main

/-- Runs the program that the first argument names. -/
def main (arguments : List String) : IO UInt32 :=
  match arguments with
  | "service" :: rest => LiveFeed.Main.service (rest.map LiveFeed.Text.ofString)
  | "watcher" :: rest => LiveFeed.Main.watcher (rest.map LiveFeed.Text.ofString)
  | "publisher" :: rest => LiveFeed.Main.publisher (rest.map LiveFeed.Text.ofString)
  | _ =>
      LiveFeed.Main.fail
        (some (.ofString "usage: service, watcher or publisher, and its arguments"))
