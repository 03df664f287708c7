/-
The arguments of a feed service.
-/
import LiveFeed.CommandLine
import LiveFeed.Config
import LiveFeed.Outside

namespace LiveFeed.Service

/-- The options of a feed service. -/
structure Options where
  configFile : Option Text
  servers : Option Text
  group : Option Text
  /-- The authority in place of the configured one. -/
  authority : Option Text
  /-- The lifetime in place of the configured one; its switch may have been given no value. -/
  lifetime : Option (Option Int)
  /-- The file that the log is restored from and saved to. -/
  stateFile : Option Text
  metricsPort : Option Int
deriving Repr, DecidableEq

namespace Options

/-- The options without arguments. -/
def default : Options :=
  ⟨some defaultConfigFile, some defaultServers, some "oracle-feed", none, none, none, some 9091⟩

def nonEmpty? (text : Text) : Option Text := if text.isEmpty then none else some text

/-- The arguments of a feed service.  An empty authority or state file counts as none. -/
def grammar : CommandLine.Grammar Options where
  switches :=
    [.help,
      .text "--config" fun configFile o => { o with configFile },
      .text "--bootstrap-servers" fun servers o => { o with servers },
      .text "--group-id" fun group o => { o with group },
      .text "--authority" fun text o => { o with authority := text.bind nonEmpty? },
      .whole "--lifetime-ms" fun lifetime o => { o with lifetime := some lifetime },
      .text "--state-file" fun text o => { o with stateFile := text.bind nonEmpty? },
      .whole "--metrics-port" fun metricsPort o => { o with metricsPort }]
  operand := none

/-- Why options cannot take the place of a configuration. -/
inductive Misfit where
  /-- There is no lifetime after its switch. -/
  | noLifetime
  | lifetimeNotPositive
deriving Repr, DecidableEq

/-- The configuration with what the options put in its place. -/
def override (options : Options) (config : Config) : Except Misfit Config := do
  let authority := options.authority.getD config.authority
  match options.lifetime with
  | none => return { config with authority }
  | some none => throw .noLifetime
  | some (some lifetime) =>
      if lifetime ≤ 0 then throw .lifetimeNotPositive
      else return { config with authority, lifetime }

end Options
end LiveFeed.Service
