/-
A service from its start to its end.  With a configuration that is valid, a state file that is
absent or has been written by a service, and a clock that shows whole numbers it comes to serve,
and what it sends and counts is what its ledger says, up to the arrival that stops it.
-/
import LiveFeed.Proofs.Config
import LiveFeed.Proofs.Json.Depth
import LiveFeed.Proofs.Service.Serving

namespace LiveFeed.Service

/-- The options and the configuration that arguments and files give. -/
structure Configures (arguments : List Text) (tree : FileTree) (options : Options)
    (config : Config) : Prop where
  options_eq : Options.grammar.read Options.default arguments = .ok options
  config_eq : ∃ loaded, Config.load tree options.configFile = .ok loaded ∧
    options.override loaded = .ok config

/-- What the lines about the start name can be shown. -/
structure Presentable (options : Options) (config : Config) : Prop where
  authority : config.authority.hasHalf = false
  stateFile : ∀ path, options.stateFile = some path → path.hasHalf = false

/-- Two lines in a file are configuration enough. -/
theorem configures_two_lines :
    Configures [] (FileTree.empty.build (Path.ofText defaultConfigFile)
        (.file (Utf8.encode "authority: ann\nlifetime_ms: 10\n"))) Options.default
      ⟨"ann", 10, "oracle-requests", "oracle-events"⟩ :=
  ⟨by decide +kernel, ⟨"ann", 10, "oracle-requests", "oracle-events"⟩, Config.load_two_lines, rfl⟩

theorem presentable_two_lines :
    Presentable Options.default ⟨"ann", 10, "oracle-requests", "oracle-events"⟩ :=
  ⟨rfl, nofun⟩

/-- A topic that can be created, or is there already. -/
structure Creatable (failures : List (Text × Text)) (topic : Text) : Prop where
  whole : ∀ p ∈ topic.points, p.isHalf = false
  noNull : CodePoint.char '\x00' ∉ topic.points
  told : ∀ failure ∈ failures, failure.1 = topic →
    failure.2.contains "TOPIC_ALREADY_EXISTS" = true

theorem creatable_default :
    ∀ topic ∈ [Text.ofString "oracle-requests", Text.ofString "oracle-events"],
      Creatable [] topic := by
  intro topic htopic
  refine ⟨?_, ?_, by simp⟩
  · revert topic
    decide
  · revert topic
    decide

theorem Creatable.hasHalf_eq_false {failures : List (Text × Text)} {topic : Text}
    (h : Creatable failures topic) : topic.hasHalf = false := by
  rw [Text.hasHalf, List.any_eq_false]
  intro p hp
  rw [h.whole p hp]
  exact Bool.false_ne_true

theorem hasHalf_startLine {config : Config} (hauthority : config.authority.hasHalf = false)
    (hrequests : config.requestsTopic.hasHalf = false)
    (hevents : config.eventsTopic.hasHalf = false) : (startLine config).hasHalf = false := by
  simp [startLine, Text.hasHalf_append, hauthority, hrequests, hevents]

theorem hasHalf_restoredLine {path : Text} (hpath : path.hasHalf = false)
    (live : Option (List Bytes)) : (restoredLine path live).hasHalf = false := by
  cases live <;> simp [restoredLine, Text.hasHalf_append, hpath]

variable {arguments : List Text} {failures : List (Text × Text)} {options : Options}
  {config : Config} {clock : Clock} {tree : FileTree} {refusals : List Nat}
  {held : Option (List Stamp)} {s : State}

theorem configure_eq (h : Configures arguments s.tree options config) :
    configure arguments s = .ok (options, config) s := by
  obtain ⟨loaded, hload, hoverride⟩ := h.config_eq
  unfold configure
  simp only [h.options_eq]
  rw [bind_get]
  simp only [hload, hoverride]
  rfl

theorem leaves_forM {α : Type} {act : α → Act Unit} {xs : List α}
    (h : ∀ x ∈ xs, ∀ s, Leaves (act x) s s.ledger s.tally) (s : State) :
    Leaves (xs.forM act) s s.ledger s.tally := by
  induction xs generalizing s with
  | nil => exact leaves_pure s
  | cons x rest ih =>
      change Leaves (act x >>= fun _ => rest.forM act) s _ _
      apply (h x List.mem_cons_self s).bind
      intro t hledger htally
      rw [← hledger, ← htally]
      exact ih (fun y hy => h y (List.mem_cons_of_mem x hy)) t

theorem leaves_checkTopic {topic : Text} (h : Creatable failures topic) (s : State) :
    Leaves (checkTopic topic) s s.ledger s.tally := by
  have hwhole := Utf8.unpaired?_eq_none_iff.mpr h.whole
  unfold checkTopic
  simp only [hwhole, List.contains_iff_mem, h.noNull, ↓reduceIte]
  exact leaves_pure s

theorem leaves_tellTopic {topic : Text} (h : Creatable failures topic) (s : State) :
    Leaves (tellTopic topic ((failures.find? (·.1 = topic)).map (·.2))) s s.ledger s.tally := by
  unfold tellTopic
  cases hfind : failures.find? (·.1 = topic) with
  | none => exact leaves_print _ s
  | some failure =>
      have hsame : failure.1 = topic := by simpa using List.find?_some hfind
      have hexists := h.told failure (List.mem_of_find?_eq_some hfind) hsame
      simp only [Option.map_some, hexists, ↓reduceIte]
      exact leaves_print _ s

theorem onFeed_of_ok {α : Type} {act : EStateM Feed.Fault (Session Outside) α} {a : α}
    {session : Session Outside} (h : act s.desk.session = .ok a session) :
    onFeed act s = .ok a { s with desk.session := session } := by
  simp only [onFeed, h]

/-- A service that has summed up. -/
def State.finished (s : State) : State :=
  { s with
    desk.session.world := (s.desk.session.world.record .flush).record .close
    output := s.output.print ("Done. " ++ s.text ++ ".") }

theorem finish_eq (s : State) : finish s = .ok () s.finished := rfl

section

variable [Limits]

/-- The state file, if there is one, holds the snapshot of a feed with the given stamps, whatever
lifetime it has been saved with; it is absent if there are none. -/
structure Restores (tree : FileTree) (stateFile : Option Text) (held : Option (List Stamp)) :
    Prop where
  none_eq : stateFile = none → held = none
  noFault : ∀ path, stateFile = some path → (Path.ofText path).fault? = none
  file_eq : ∀ path, stateFile = some path →
    ∃ stored, StateFile.read tree path = .ok (Snapshot.ofHeld stored held)
  ordered : Stamp.Ordered (held.getD [])
  timesFit : ∀ s ∈ held.getD [], Digits.fit s.time = true

/-- A service that has just been started, with a clock of its own. -/
def State.startWith (clock : Clock) (tree : FileTree) (refusals : List Nat) : State :=
  { State.start tree (.int 0) refusals with desk.session.clock := clock }

namespace Ledger

/-- The ledger with a log of the given stamps, if there are any; its clock is read then. -/
def restore (lifetime : Int) (held : Option (List Stamp)) (l : Ledger) : Ledger :=
  { l with
    desk.session.feed := { l.desk.session.feed with log := held.map (Log.stamped lifetime) }
    desk.session.clock :=
      if held.isSome then l.desk.session.clock.read.2 else l.desk.session.clock }

/-- The ledger with a subscriber who takes note. -/
def subscribe (l : Ledger) : Ledger :=
  { l with desk.session.feed := l.desk.session.feed.subscribe .record }

/-- The ledger with which serving begins. -/
def opening (config : Config) (clock : Clock) (tree : FileTree) (held : Option (List Stamp)) :
    Ledger :=
  let feed := Feed.new config.authority (.int config.lifetime)
  let empty : Ledger := ⟨⟨⟨feed, clock, ()⟩, Metrics.zero⟩, tree⟩
  (empty.restore config.lifetime held).subscribe

end Ledger

/-- A state file that is absent restores no log. -/
theorem Restores.of_absent {path : Text} (hfault : (Path.ofText path).fault? = none)
    (habsent : tree.node? (Path.ofText path) = .ok none) : Restores tree (some path) none := by
  refine ⟨nofun, ?_, ?_, List.Pairwise.nil, nofun⟩
  · rintro _ ⟨⟩
    exact hfault
  · rintro _ ⟨⟩
    refine ⟨0, ?_⟩
    rw [StateFile.read, habsent]
    rfl

/-- What a service has saved is restored. -/
theorem Restores.of_persist {ω : Type} {desk : Desk ω} {lifetime : Int} {path : Text}
    {m metrics : Metrics} {later : FileTree} (h : desk.Stands lifetime held)
    (hpersist : StateFile.persist path desk.session.feed (m, tree) = .ok none (metrics, later)) :
    Restores later (some path) held := by
  obtain ⟨hname, htemporary, -⟩ := StateFile.write_eq_ok (StateFile.write_of_persist hpersist)
  refine ⟨nofun, ?_, ?_, h.holds.ordered, h.timesFit⟩
  · rintro _ ⟨⟩
    exact (Path.fault?_temporary_eq_none_iff hname).mp htemporary
  · rintro _ ⟨⟩
    exact ⟨lifetime, Station.read_of_persist h.holds hpersist⟩

theorem Restores.usable {stateFile : Option Text} (h : Restores tree stateFile held) :
    Usable stateFile := by
  intro path hpath
  obtain ⟨stored, hread⟩ := h.file_eq path hpath
  exact ⟨StateFile.name_of_read (h.noFault path hpath) hread, h.noFault path hpath⟩

/-- Nothing has been sent or counted. -/
structure Tally.Fresh (config : Config) (refusals : List Nat) (tally : Tally) : Prop where
  publishes : Publishes config refusals [] tally.world
  consumed_eq : tally.consumed = 0
  emitted_eq : tally.emitted = 0
  rejected_eq : tally.rejected = 0

/-- A step before the service is serving succeeds and leaves a ledger. -/
def Prepares (config : Config) (refusals : List Nat) (act : Act Unit) (s : State) (l : Ledger) :
    Prop :=
  ∃ t, act s = .ok () t ∧ t.ledger = l ∧ t.tally.Fresh config refusals

variable {act next : Act Unit} {l l' : Ledger}

theorem Prepares.bind (hact : Prepares config refusals act s l)
    (hnext : ∀ t, t.ledger = l → t.tally.Fresh config refusals →
      Prepares config refusals next t l') :
    Prepares config refusals (act >>= fun _ => next) s l' := by
  obtain ⟨t, hrun, hledger, hfresh⟩ := hact
  obtain ⟨u, hrun', hprepared⟩ := hnext t hledger hfresh
  exact ⟨u, by rw [bind_of_ok hrun, hrun'], hprepared⟩

theorem Leaves.prepares (h : Leaves act s l s.tally) (hfresh : s.tally.Fresh config refusals) :
    Prepares config refusals act s l := by
  obtain ⟨t, hrun, hledger, htally⟩ := h
  rw [← htally] at hfresh
  exact ⟨t, hrun, hledger, hfresh⟩

theorem prepares_ask {action : Action}
    (haction : ∀ topic key text, action ≠ .produce topic key text)
    (hfresh : s.tally.Fresh config refusals) :
    Prepares config refusals (ask action) s s.ledger := by
  refine ⟨_, rfl, rfl, ?_, hfresh.consumed_eq, hfresh.emitted_eq, hfresh.rejected_eq⟩
  exact hfresh.publishes.record haction

theorem prepares_createTopics {topics : List Text}
    (htopics : ∀ topic ∈ topics, Creatable failures topic)
    (hfresh : s.tally.Fresh config refusals) :
    Prepares config refusals (createTopics options failures topics) s s.ledger := by
  unfold createTopics
  apply (prepares_ask (by simp) hfresh).bind
  intro t hledger hfresh
  rw [← hledger]
  have hcheck : Leaves (topics.forM checkTopic) t t.ledger t.tally :=
    leaves_forM (fun topic htopic => leaves_checkTopic (htopics topic htopic)) t
  apply (hcheck.prepares hfresh).bind
  intro t hledger hfresh
  rw [← hledger]
  apply (prepares_ask (by simp) hfresh).bind
  intro t hledger hfresh
  rw [← hledger]
  have htell : Leaves (topics.eraseDups.forM fun topic =>
      tellTopic topic ((failures.find? (·.1 = topic)).map (·.2))) t t.ledger t.tally := by
    apply leaves_forM
    intro topic htopic
    exact leaves_tellTopic (htopics topic (List.mem_eraseDups.mp htopic))
  exact htell.prepares hfresh

theorem leaves_display {line : Text} (h : line.hasHalf = false) (s : State) :
    Leaves (display line) s s.ledger s.tally := by
  simp only [display, Limits.unprinted?_eq_none line h]
  exact leaves_print line s

theorem prepares_connect (options : Options) (hlifetime : Digits.fit config.lifetime = true)
    (hauthority : config.authority.hasHalf = false)
    (htopics : ∀ topic ∈ [config.requestsTopic, config.eventsTopic], Creatable failures topic)
    (hfresh : s.tally.Fresh config refusals) :
    Prepares config refusals (connect options config failures) s s.ledger.subscribe := by
  unfold connect
  apply (prepares_ask (by simp) hfresh).bind
  intro t hledger hfresh
  rw [← hledger]
  apply (prepares_createTopics htopics hfresh).bind
  intro t hledger hfresh
  rw [← hledger]
  apply (prepares_ask (by simp) hfresh).bind
  intro t hledger hfresh
  rw [← hledger]
  apply (prepares_ask (by simp) hfresh).bind
  intro t hledger hfresh
  rw [← hledger]
  apply (prepares_ask (by simp) hfresh).bind
  intro t hledger hfresh
  rw [← hledger]
  have hsubscribe : Leaves (modify fun s : State => { s with
      desk.session.feed := s.desk.session.feed.subscribe .record }) t t.ledger.subscribe
        t.tally := ⟨_, rfl, rfl, rfl⟩
  apply (hsubscribe.prepares hfresh).bind
  intro t hledger hfresh
  rw [← hledger, hlifetime]
  have hline : (startLine config).hasHalf = false :=
    hasHalf_startLine hauthority (htopics _ List.mem_cons_self).hasHalf_eq_false
      (htopics _ (List.mem_cons_of_mem _ List.mem_cons_self)).hasHalf_eq_false
  exact (leaves_display hline t).prepares hfresh

/-- The feed is loaded from the state file, and read once if there is a log. -/
theorem leaves_restore {lifetime : Int} (h : Restores s.tree options.stateFile held)
    (hshown : Presentable options config)
    (hfeed : s.desk.session.feed.Holds lifetime none) (hclock : s.desk.session.clock.IsWhole) :
    Leaves (restore options) s (s.ledger.restore lifetime held) s.tally := by
  unfold restore
  cases hfile : options.stateFile with
  | none =>
      have hlog : { s.desk.session.feed with log := none } = s.desk.session.feed :=
        congrArg (fun log => ({ s.desk.session.feed with log } : Feed)) hfeed.log_eq.symm
      rw [h.none_eq hfile]
      refine ⟨s, rfl, ?_, rfl⟩
      simp only [Ledger.restore, State.ledger, Desk.movedTo, Option.map_none, hlog]
      rfl
  | some path =>
      obtain ⟨stored, hread⟩ := h.file_eq path hfile
      obtain ⟨now, hnow⟩ := hclock s.desk.session.clock.reads
      have hload := onFeed_of_ok (Session.load_ofHeld hfeed.lifetime_eq stored h.ordered)
      have hholds : { s.desk.session.feed with log := held.map (Log.stamped lifetime) }.Holds
          lifetime held := ⟨hfeed.lifetime_eq, rfl, h.ordered⟩
      have hlive := Session.read_eq (s := { s.desk.session with
        feed := { s.desk.session.feed with log := held.map (Log.stamped lifetime) } })
        hholds.carries hnow
      unfold Leaves
      simp only []
      rw [bind_get, hread]
      simp only []
      rw [bind_of_ok hload]
      have hline := hasHalf_restoredLine (hshown.stateFile path hfile)
      cases held with
      | none =>
          rw [bind_of_ok (onFeed_of_ok hlive)]
          exact leaves_display (hline none) _
      | some ss =>
          rw [bind_of_ok (onFeed_of_ok hlive)]
          exact leaves_display (hline (some _)) _

theorem Account.finished {stateFile : Option Text} {opening : Ledger} {served : List Arrival}
    (h : Account config refusals stateFile opening served s) :
    Account config refusals stateFile opening served s.finished :=
  h.of_tally ((h.publishes.record (by simp)).record (by simp)) rfl rfl rfl rfl

/-- What comes before serving leaves the ledger with which serving begins. -/
theorem prepares_opening (hlifetime : Digits.fit config.lifetime = true)
    (hshown : Presentable options config)
    (htopics : ∀ topic ∈ [config.requestsTopic, config.eventsTopic], Creatable failures topic)
    (hrestores : Restores tree options.stateFile held) (hclock : clock.IsWhole)
    (refusals : List Nat) :
    Prepares config refusals
      (openFeed config >>= fun _ => restore options >>= fun _ => connect options config failures)
      (State.startWith clock tree refusals) (Ledger.opening config clock tree held) := by
  have hfresh : (State.startWith clock tree refusals).tally.Fresh config refusals := by
    refine ⟨⟨rfl, rfl, ?_, rfl⟩, rfl, rfl, rfl⟩
    intro attempt hlt
    exact absurd hlt (Nat.not_lt_zero attempt)
  have hopen : Leaves (openFeed config) (State.startWith clock tree refusals)
      ⟨⟨⟨Feed.new config.authority (.int config.lifetime), clock, ()⟩, Metrics.zero⟩, tree⟩
      (State.startWith clock tree refusals).tally := ⟨_, rfl, rfl, rfl⟩
  apply (hopen.prepares hfresh).bind
  intro t hledger hfresh
  have hfeed : t.ledger.desk.session.feed.Holds config.lifetime none := by
    rw [hledger]
    exact ⟨rfl, rfl, List.Pairwise.nil⟩
  have hwhole : t.ledger.desk.session.clock.IsWhole := by
    rw [hledger]
    exact hclock
  have htree : t.tree = tree := congrArg Ledger.tree hledger
  rw [← htree] at hrestores
  apply ((leaves_restore hrestores hshown hfeed hwhole).prepares hfresh).bind
  intro t hrestored hfresh
  have hconnect := prepares_connect options hlifetime hshown.authority htopics hfresh
  rw [hrestored, hledger] at hconnect
  exact hconnect

theorem stands_opening (config : Config) (hrestores : Restores tree options.stateFile held)
    (hclock : clock.IsWhole) :
    (Ledger.opening config clock tree held).desk.Stands config.lifetime held := by
  refine ⟨⟨rfl, rfl, hrestores.ordered⟩, rfl, ?_, hrestores.timesFit⟩
  intro n
  cases held with
  | none => exact hclock n
  | some ss => exact hclock n

/-- Serves until the end or a fault, and sums up in either case. -/
def serveAndFinish (options : Options) (config : Config) (arrivals : List Arrival) : Act Unit := do
  tryCatch (serve options config arrivals) fun fault => do
    finish
    throw fault
  finish

theorem run_eq (hconfigures : Configures arguments s.tree options config)
    (arrivals : List Arrival) :
    run arguments failures arrivals s =
      ((openFeed config >>= fun _ => restore options >>= fun _ =>
          connect options config failures) >>= fun _ =>
        serveAndFinish options config arrivals) s := by
  unfold run
  rw [bind_of_ok (configure_eq hconfigures), bind_assoc]
  simp only [bind_assoc]
  rfl

theorem serveAndFinish_of_ok {arrivals : List Arrival} {t : State}
    (h : serve options config arrivals s = .ok () t) :
    serveAndFinish options config arrivals s = .ok () t.finished := by
  unfold serveAndFinish
  rw [bind_of_ok (tryCatch_of_ok h), finish_eq]

theorem serveAndFinish_of_error {arrivals : List Arrival} {t : State} {fault : Fault}
    (h : serve options config arrivals s = .error fault t) :
    serveAndFinish options config arrivals s = .error fault t.finished := by
  unfold serveAndFinish
  exact bind_of_error (tryCatch_of_error h)

/-- A service comes to serve, with nothing on its account. -/
theorem exists_serving (hconfigures : Configures arguments tree options config)
    (hlifetime : Digits.fit config.lifetime = true) (hshown : Presentable options config)
    (htopics : ∀ topic ∈ [config.requestsTopic, config.eventsTopic], Creatable failures topic)
    (hrestores : Restores tree options.stateFile held) (hclock : clock.IsWhole)
    (refusals : List Nat) (arrivals : List Arrival) :
    ∃ s, s.ledger = Ledger.opening config clock tree held ∧
      s.ledger.desk.Stands config.lifetime held ∧
      Account config refusals options.stateFile (Ledger.opening config clock tree held) [] s ∧
      s.consumed = 0 ∧
      run arguments failures arrivals (State.startWith clock tree refusals) =
        serveAndFinish options config arrivals s := by
  obtain ⟨s, hprepare, hledger, hfresh⟩ :=
    prepares_opening hlifetime hshown htopics hrestores hclock refusals
  have hstands := stands_opening config hrestores hclock
  rw [← hledger] at hstands
  have hrun := (run_eq hconfigures arrivals).trans (bind_of_ok hprepare)
  refine ⟨s, hledger, hstands, ?_, hfresh.consumed_eq, hrun⟩
  constructor
  · intro arrival harrival
    cases harrival
  · exact hfresh.publishes
  · exact hfresh.emitted_eq
  · exact hfresh.rejected_eq
  · have hemitted : s.emitted = 0 := hfresh.emitted_eq
    have hrejected : s.rejected = 0 := hfresh.rejected_eq
    rw [hemitted, hrejected]
    rfl
  · exact congrArg (fun l => l.desk.session.feed) hledger
  · exact congrArg Ledger.tree hledger

/-- However serving ends, the service sums up and leaves it at that. -/
theorem ends_serveAndFinish {stateFile : Option Text} {opening : Ledger}
    {served rest arrivals : List Arrival}
    (h : Ends config refusals stateFile opening served rest (serve options config arrivals s)) :
    let result := serveAndFinish options config arrivals s
    Ends config refusals stateFile opening served rest result ∧
      (ending result).output.printed.head? =
        some ("Done. " ++ (ending result).text ++ ".") := by
  intro result
  cases hserve : serve options config arrivals s with
  | ok _ t =>
      rw [hserve] at h
      rw [show result = .ok () t.finished from serveAndFinish_of_ok hserve]
      cases h with
      | all haccount hconsumed hmetrics => exact ⟨.all haccount.finished hconsumed hmetrics, rfl⟩
  | error fault t =>
      rw [hserve] at h
      rw [show result = .error fault t.finished from serveAndFinish_of_error hserve]
      cases h with
      | stopped haccount hconsumed hstops =>
          exact ⟨.stopped haccount.finished hconsumed hstops, rfl⟩

/-- A service comes to serve, and serves as its ledger does until that ends. -/
theorem exists_served (hconfigures : Configures arguments tree options config)
    (hlifetime : Digits.fit config.lifetime = true) (hshown : Presentable options config)
    (htopics : ∀ topic ∈ [config.requestsTopic, config.eventsTopic], Creatable failures topic)
    (hrestores : Restores tree options.stateFile held) (hclock : clock.IsWhole)
    {arrivals : List Arrival} (harrivals : ∀ arrival ∈ arrivals, arrival.IsWhole)
    (refusals : List Nat) :
    ∃ s served rest, arrivals = served ++ rest ∧
      Ends config refusals options.stateFile (Ledger.opening config clock tree held) served rest
        (serve options config arrivals s) ∧
      run arguments failures arrivals (State.startWith clock tree refusals) =
        serveAndFinish options config arrivals s := by
  obtain ⟨s, hledger, hstands, haccount, hconsumed, hrun⟩ :=
    exists_serving hconfigures hlifetime hshown htopics hrestores hclock refusals arrivals
  have hnone : s.ledger =
      ((Ledger.opening config clock tree held).run options.stateFile []).2 := hledger
  obtain ⟨served, rest, hsplit, hends⟩ :=
    ends_serve hrestores.usable hlifetime harrivals hstands hnone haccount hconsumed
  exact ⟨s, served, rest, hsplit, hends, hrun⟩

/-- A service comes to serve, sends and counts what its ledger says of what it has served, and sums
up.  It serves all arrivals, unless one of them stops it. -/
theorem run_follows_ledger (hconfigures : Configures arguments tree options config)
    (hlifetime : Digits.fit config.lifetime = true) (hshown : Presentable options config)
    (htopics : ∀ topic ∈ [config.requestsTopic, config.eventsTopic], Creatable failures topic)
    (hrestores : Restores tree options.stateFile held) (hclock : clock.IsWhole)
    {arrivals : List Arrival} (harrivals : ∀ arrival ∈ arrivals, arrival.IsWhole)
    (refusals : List Nat) :
    let opening := Ledger.opening config clock tree held
    let result := run arguments failures arrivals (State.startWith clock tree refusals)
    ∃ served rest, arrivals = served ++ rest ∧
      Ends config refusals options.stateFile opening served rest result ∧
      (ending result).output.printed.head? = some ("Done. " ++ (ending result).text ++ ".") := by
  intro opening result
  obtain ⟨s, served, rest, hsplit, hends, hrun⟩ :=
    exists_served hconfigures hlifetime hshown htopics hrestores hclock harrivals refusals
  have hresult : result = serveAndFinish options config arrivals s := hrun
  refine ⟨served, rest, hsplit, ?_⟩
  rw [hresult]
  exact ends_serveAndFinish hends

theorem restores_default (tree : FileTree) : Restores tree Options.default.stateFile none :=
  ⟨fun _ => rfl, nofun, nofun, List.Pairwise.nil, nofun⟩

end

open scoped Limits

/-- A message that is nested too deeply stops a service after the push before it. -/
theorem run_stops_at_brackets :
    let document := "authority: ann\nlifetime_ms: 10\n"
    let tree := FileTree.empty.build (Path.ofText defaultConfigFile) (.file (Utf8.encode document))
    let request := "\x7b\"call\": \"push_data\", \"origin\": \"ann\", \"data\": \"61\"\x7d"
    let push : Arrival := ⟨some (.int 1), .message (some (Utf8.encode request))⟩
    let brackets := String.ofList (List.replicate (Limits.readDepth + 1) '[')
    let deep : Arrival := ⟨none, .message (some (Utf8.encode brackets))⟩
    ∃ fault t, run [] [] [push, deep] (State.startWith (Clock.showing (.int 0)) tree []) =
      .error fault t ∧ t.consumed = 2 ∧ t.emitted = 1 := by
  intro document tree request push brackets deep
  have hclock : (Clock.showing (.int 0)).IsWhole := fun _ => ⟨0, rfl⟩
  have harrivals : ∀ arrival ∈ [push, deep], arrival.IsWhole := by
    intro arrival harrival seconds hseconds
    rcases List.mem_pair.mp harrival with rfl | rfl
    · cases hseconds
      exact ⟨1000, by decide +kernel⟩
    · cases hseconds
  have hpush : push.isReadable = true := by decide +kernel
  have hdeep : deep.isReadable = false := by
    have hnone : ∀ c ∈ ([] : List Char), IsPrintableAscii c := by simp
    have hdecode := Wire.decode_of_brackets hnone
    rw [List.append_nil] at hdecode
    exact Arrival.isReadable_of_tooDeep rfl hdecode rfl
  have hlifetime : Digits.fit 10 = true := by decide +kernel
  have hemitted : ((Ledger.opening ⟨"ann", 10, "oracle-requests", "oracle-events"⟩
      (Clock.showing (.int 0)) tree none).run none [push]).1.countP Fate.isEmitted = 1 := by
    decide +kernel
  obtain ⟨served, rest, hsplit, hends, -⟩ := run_follows_ledger configures_two_lines hlifetime
    presentable_two_lines creatable_default (restores_default tree) hclock harrivals []
  have hserved : served = [push] := by
    have htake := hends.served_eq
    rw [← hsplit] at htake
    simpa [hpush, hdeep] using htake
  have hrest : rest = [deep] := by
    rw [hserved] at hsplit
    exact (List.cons.inj hsplit).2.symm
  rw [hserved, hrest] at hends
  generalize run [] [] [push, deep] (State.startWith (Clock.showing (.int 0)) tree []) = result
    at hends ⊢
  cases hends with
  | stopped haccount hconsumed hstops =>
      exact ⟨_, _, rfl, hconsumed, haccount.emitted_eq.trans hemitted⟩

end LiveFeed.Service
