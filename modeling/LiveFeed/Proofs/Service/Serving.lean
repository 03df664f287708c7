/-
The service at work.  It serves arrival after arrival as its ledger does, until no more come or it
stops: at a message that cannot be read, or when the broker refuses what is to be sent.
-/
import LiveFeed.Proofs.Json.Wording
import LiveFeed.Proofs.Service.Request

namespace LiveFeed

variable [Limits]

/-- Whether a message, if one has come, has a value that is not nested too deeply. -/
def Arrival.isReadable (arrival : Arrival) : Bool :=
  match arrival.poll with
  | .message none => false
  | .message (some octets) =>
      match Wire.decode octets with
      | .error fault => !fault.isTooDeep
      | .ok _ => true
  | _ => true

theorem Arrival.isReadable_of_tooDeep {arrival : Arrival} {octets : Bytes} {fault : Wire.Fault}
    (hpoll : arrival.poll = .message (some octets)) (hdecode : Wire.decode octets = .error fault)
    (hdeep : fault.isTooDeep = true) : arrival.isReadable = false := by
  simp [isReadable, hpoll, hdecode, hdeep]

namespace Service

/-- Why a service stops at an arrival of a certain fate, after it has sent a number of messages. -/
inductive Stops (refusals : List Nat) (sent : Nat) (fate : Fate) (arrival : Arrival) :
    Fault → Prop where
  | tooDeep {octets : Bytes} {fault : Wire.Fault} (hpoll : arrival.poll = .message (some octets))
      (hdecode : Wire.decode octets = .error fault) (hdeep : fault.isTooDeep = true) :
      Stops refusals sent fate arrival (.message fault)
  | noValue (hpoll : arrival.poll = .message none) : Stops refusals sent fate arrival .noValue
  | refused {message : Value} {fault : Fault} (hmessage : fate.message? = some message)
      (hrefused : sent ∈ refusals)
      (hfault : fault.message? = some (.ofString Outside.queueFullMessage)) :
      Stops refusals sent fate arrival fault

/-- A service only stops at what cannot be read, or if the broker refuses a message. -/
theorem Stops.unreadable_or_refused {refusals : List Nat} {sent : Nat} {fate : Fate}
    {arrival : Arrival} {fault : Fault} (h : Stops refusals sent fate arrival fault) :
    arrival.isReadable = false ∨ sent ∈ refusals := by
  cases h with
  | tooDeep hpoll hdecode hdeep => exact .inl (Arrival.isReadable_of_tooDeep hpoll hdecode hdeep)
  | noValue hpoll =>
      left
      rw [Arrival.isReadable, hpoll]
  | refused hmessage hrefused hfault => exact .inr hrefused

/-- What an arrival at a service comes to: it is served, or the service stops. -/
inductive Serves (config : Config) (refusals : List Nat) (messages : List Value)
    (arrival : Arrival) (fate : Fate) (l : Ledger) (s : State) :
    EStateM.Result Fault State Unit → Prop where
  | on {t : State} (hreadable : arrival.isReadable = true) (hledger : t.ledger = l)
      (hpublishes : Publishes config refusals (messages ++ fate.message?.toList)
        t.desk.session.world)
      (hconsumed : t.consumed = s.consumed + if arrival.bringsMessage then 1 else 0)
      (hemitted : t.emitted = s.emitted + if fate.isEmitted then 1 else 0)
      (hrejected : t.rejected = s.rejected + if fate.isRejected then 1 else 0) :
      Serves config refusals messages arrival fate l s (.ok () t)
  | off {fault : Fault} {t : State}
      (hstops : Stops refusals messages.length fate arrival fault)
      (hfeed : t.desk.session.feed = s.desk.session.feed) (htree : t.tree = s.tree)
      (htally : t.tally = { s.tally with consumed := s.consumed + 1 }) :
      Serves config refusals messages arrival fate l s (.error fault t)

variable {options : Options} {config : Config} {refusals : List Nat} {messages : List Value}
  {lifetime : Int} {held : Option (List Stamp)} {s : State} {arrival : Arrival}

theorem Leaves.serves {act : Act Unit} {t : State} {fate : Fate} {l : Ledger} {tally : Tally}
    (h : Leaves act t l tally) (hreadable : arrival.isReadable = true)
    (hpublishes : Publishes config refusals (messages ++ fate.message?.toList) tally.world)
    (hconsumed : tally.consumed = s.consumed + if arrival.bringsMessage then 1 else 0)
    (hemitted : tally.emitted = s.emitted + if fate.isEmitted then 1 else 0)
    (hrejected : tally.rejected = s.rejected + if fate.isRejected then 1 else 0) :
    Serves config refusals messages arrival fate l s (act t) := by
  obtain ⟨u, hrun, hledger, rfl⟩ := h
  rw [hrun]
  exact .on hreadable hledger hpublishes hconsumed hemitted hrejected

/-- What brings no message is served without any being sent. -/
theorem Leaves.serves_idle {act : Act Unit} {fate : Fate} {l : Ledger}
    (h : Leaves act s l s.tally) (hbrings : arrival.bringsMessage = false)
    (hfate : fate.isOfMessage = false)
    (hpublishes : Publishes config refusals messages s.desk.session.world) :
    Serves config refusals messages arrival fate l s (act s) := by
  have hreadable : arrival.isReadable = true := by
    unfold Arrival.bringsMessage at hbrings
    unfold Arrival.isReadable
    cases hpoll : arrival.poll with
    | nothing => rfl
    | failure code text => rfl
    | message value =>
        rw [hpoll] at hbrings
        cases hbrings
  have hconsumed : s.consumed = s.consumed + if arrival.bringsMessage then 1 else 0 := by
    rw [hbrings]
    rfl
  rw [← List.append_nil messages] at hpublishes
  cases fate with
  | idle => exact h.serves hreadable hpublishes hconsumed rfl rfl
  | failed => exact h.serves hreadable hpublishes hconsumed rfl rfl
  | malformed => cases hfate
  | handled outcome => cases hfate

/-- A message is served, unless it cannot be read or the broker refuses what is to be sent. -/
theorem serves_consume (husable : Usable options.stateFile)
    (hlifetime : Digits.fit lifetime = true) (h : s.ledger.desk.Stands lifetime held)
    (hpublishes : Publishes config refusals messages s.desk.session.world) {value : Option Bytes}
    (hpoll : arrival.poll = .message value) :
    Serves config refusals messages arrival (s.ledger.receive options.stateFile value).1
      (s.ledger.receive options.stateFile value).2 s (consume options config value s) := by
  have hcount : (modify fun s : State => { s with consumed := s.consumed + 1 } : Act Unit) s =
      .ok () { s with consumed := s.consumed + 1 } := rfl
  have hbrings : arrival.bringsMessage = true := by
    rw [Arrival.bringsMessage, hpoll]
  have hconsumed : s.consumed + 1 = s.consumed + if arrival.bringsMessage then 1 else 0 := by
    rw [hbrings]
    rfl
  unfold consume
  rw [bind_of_ok hcount]
  cases value with
  | none => exact .off (.noValue hpoll) rfl rfl rfl
  | some octets =>
      cases hdecode : Wire.decode octets with
      | error fault =>
          rw [Ledger.receive_of_error hdecode]
          simp only [hdecode]
          by_cases hdeep : fault.isTooDeep = true
          · rw [if_pos hdeep]
            exact .off (.tooDeep hpoll hdecode hdeep) rfl rfl rfl
          · rw [if_neg hdeep]
            have hreadable : arrival.isReadable = true := by
              simp [Arrival.isReadable, hpoll, hdecode, hdeep]
            rw [← List.append_nil messages] at hpublishes
            exact (leaves_skip _ { s with consumed := s.consumed + 1 }).serves hreadable hpublishes
              hconsumed rfl rfl
      | ok request =>
          rw [Ledger.receive_of_ok hdecode]
          simp only [hdecode]
          have hreadable : arrival.isReadable = true := by
            simp [Arrival.isReadable, hpoll, hdecode]
          have hfollows := follows_apply config
            (s := { s with consumed := s.consumed + 1 }) husable hlifetime h hpublishes
            (Wire.wordless_of_decode hdecode)
          generalize apply options config request { s with consumed := s.consumed + 1 } = result
            at hfollows
          cases hfollows with
          | on hledger hpublishes hcount hemitted hrejected =>
              exact .on hreadable hledger hpublishes (hcount.trans hconsumed) hemitted hrejected
          | off hmessage hrefused hfault hfeed htree htally =>
              exact .off (.refused hmessage hrefused hfault) hfeed htree htally

/-- It makes no difference whether the clock has been set before. -/
theorem Serves.of_eq {t : State} {fate : Fate} {l : Ledger}
    {result : EStateM.Result Fault State Unit}
    (h : Serves config refusals messages arrival fate l t result)
    (hfeed : t.desk.session.feed = s.desk.session.feed) (htree : t.tree = s.tree)
    (htally : t.tally = s.tally) : Serves config refusals messages arrival fate l s result := by
  have hconsumed : t.consumed = s.consumed := congrArg Tally.consumed htally
  have hemitted : t.emitted = s.emitted := congrArg Tally.emitted htally
  have hrejected : t.rejected = s.rejected := congrArg Tally.rejected htally
  cases h with
  | on hreadable hledger hpublishes hconsumed' hemitted' hrejected' =>
      rw [hconsumed] at hconsumed'
      rw [hemitted] at hemitted'
      rw [hrejected] at hrejected'
      exact .on hreadable hledger hpublishes hconsumed' hemitted' hrejected'
  | off hstops hfeed' htree' htally' =>
      rw [hconsumed, htally] at htally'
      exact .off hstops (hfeed'.trans hfeed) (htree'.trans htree) htally'

/-- An arrival is served, or the service stops. -/
theorem serves_step (config : Config) (husable : Usable options.stateFile)
    (hlifetime : Digits.fit lifetime = true) (h : s.ledger.desk.Stands lifetime held)
    (hpublishes : Publishes config refusals messages s.desk.session.world)
    (harrival : arrival.IsWhole) :
    Serves config refusals messages arrival (s.ledger.deal options.stateFile arrival).1
      (s.ledger.deal options.stateFile arrival).2 s (step options config arrival s) := by
  obtain ⟨t, hset, hledger, htally⟩ := leaves_setClock arrival.seconds s
  have hstands := Ledger.stands_setClock h harrival
  have hfeed : t.desk.session.feed = s.desk.session.feed := by
    have hfeed : t.ledger.desk.session.feed = s.ledger.desk.session.feed := by
      rw [hledger, Ledger.feed_setClock]
    exact hfeed
  have htree : t.tree = s.tree := by
    have htree : t.ledger.tree = s.ledger.tree := by
      rw [hledger, Ledger.tree_setClock]
    exact htree
  have hworld : t.desk.session.world = s.desk.session.world := congrArg Tally.world htally
  rw [← hworld] at hpublishes
  rw [← hledger] at hstands
  refine Serves.of_eq ?_ hfeed htree htally
  unfold step Ledger.deal
  rw [bind_of_ok hset, ← hledger]
  cases hpoll : arrival.poll with
  | nothing =>
      have hbrings : arrival.bringsMessage = false := by
        rw [Arrival.bringsMessage, hpoll]
      exact (leaves_pure t).serves_idle hbrings rfl hpublishes
  | failure code text =>
      have hbrings : arrival.bringsMessage = false := by
        rw [Arrival.bringsMessage, hpoll]
      by_cases hend : code = Poll.endOfPartition
      · simp only [hend, ↓reduceIte]
        exact (leaves_pure t).serves_idle hbrings rfl hpublishes
      · simp only [hend, ↓reduceIte]
        have hcounted : Leaves (do
            modify fun s : State => { s with desk.metrics := s.desk.metrics.countError }
            report ("Consumer error: " ++ text)) t t.ledger.countError t.tally :=
          ⟨_, rfl, rfl, rfl⟩
        exact hcounted.serves_idle hbrings rfl hpublishes
  | message value => exact serves_consume husable hlifetime hstands hpublishes hpoll

/-- The account of a service that has served some arrivals: it has sent and counted what their fates
demand, and its feed and its files are those of the ledger. -/
structure Account (config : Config) (refusals : List Nat) (stateFile : Option Text)
    (opening : Ledger) (served : List Arrival) (s : State) : Prop where
  readable : ∀ arrival ∈ served, arrival.isReadable = true
  publishes : Publishes config refusals
    ((opening.run stateFile served).1.filterMap Fate.message?) s.desk.session.world
  emitted_eq : s.emitted = (opening.run stateFile served).1.countP Fate.isEmitted
  rejected_eq : s.rejected = (opening.run stateFile served).1.countP Fate.isRejected
  balance : served.countP Arrival.bringsMessage = s.emitted + s.rejected +
    (opening.run stateFile served).1.countP Fate.isCleaned +
    (opening.run stateFile served).1.countP Fate.isMalformed
  feed_eq : s.desk.session.feed = (opening.run stateFile served).2.desk.session.feed
  tree_eq : s.tree = (opening.run stateFile served).2.tree

/-- How serving ends: with all arrivals, or at the first one that stops the service, whose message
counts as consumed. -/
inductive Ends (config : Config) (refusals : List Nat) (stateFile : Option Text)
    (opening : Ledger) (served : List Arrival) :
    List Arrival → EStateM.Result Fault State Unit → Prop where
  | all {t : State} (haccount : Account config refusals stateFile opening served t)
      (hconsumed : t.consumed = served.countP Arrival.bringsMessage)
      (hmetrics : t.desk.metrics = (opening.run stateFile served).2.desk.metrics) :
      Ends config refusals stateFile opening served [] (.ok () t)
  | stopped {fault : Fault} {t : State} {arrival : Arrival} {rest : List Arrival}
      (haccount : Account config refusals stateFile opening served t)
      (hconsumed : t.consumed = served.countP Arrival.bringsMessage + 1)
      (hstops : Stops refusals ((opening.run stateFile served).1.filterMap Fate.message?).length
        ((opening.run stateFile served).2.deal stateFile arrival).1 arrival fault) :
      Ends config refusals stateFile opening served (arrival :: rest) (.error fault t)

variable {stateFile : Option Text} {opening : Ledger} {served : List Arrival}

/-- If the broker refuses nothing, a service serves what comes before the first message that cannot
be read. -/
theorem Ends.served_eq {rest : List Arrival} {result : EStateM.Result Fault State Unit}
    (h : Ends config [] stateFile opening served rest result) :
    served = (served ++ rest).takeWhile Arrival.isReadable := by
  cases h with
  | all haccount hconsumed hmetrics =>
      rw [List.append_nil, List.takeWhile_eq_self_iff.mpr haccount.readable]
  | stopped haccount hconsumed hstops =>
      have hunreadable := hstops.unreadable_or_refused.resolve_right List.not_mem_nil
      rw [List.takeWhile_append_of_pos haccount.readable,
        List.takeWhile_cons_of_neg (by simp [hunreadable]), List.append_nil]

theorem Account.of_tally (h : Account config refusals stateFile opening served s) {t : State}
    (hworld : Publishes config refusals
      ((opening.run stateFile served).1.filterMap Fate.message?) t.desk.session.world)
    (hemitted : t.emitted = s.emitted) (hrejected : t.rejected = s.rejected)
    (hfeed : t.desk.session.feed = s.desk.session.feed) (htree : t.tree = s.tree) :
    Account config refusals stateFile opening served t where
  readable := h.readable
  publishes := hworld
  emitted_eq := hemitted.trans h.emitted_eq
  rejected_eq := hrejected.trans h.rejected_eq
  balance := by
    rw [hemitted, hrejected]
    exact h.balance
  feed_eq := hfeed.trans h.feed_eq
  tree_eq := htree.trans h.tree_eq

/-- One more arrival is added to the account. -/
theorem Account.concat (h : Account config refusals stateFile opening served s)
    {t : State} (hreadable : arrival.isReadable = true)
    (hledger : t.ledger = ((opening.run stateFile served).2.deal stateFile arrival).2)
    (hpublishes : Publishes config refusals
      ((opening.run stateFile served).1.filterMap Fate.message? ++
        ((opening.run stateFile served).2.deal stateFile arrival).1.message?.toList)
      t.desk.session.world)
    (hemitted : t.emitted = s.emitted +
      if ((opening.run stateFile served).2.deal stateFile arrival).1.isEmitted then 1 else 0)
    (hrejected : t.rejected = s.rejected +
      if ((opening.run stateFile served).2.deal stateFile arrival).1.isRejected then 1 else 0) :
    Account config refusals stateFile opening (served ++ [arrival]) t := by
  have hfates : (opening.run stateFile (served ++ [arrival])).1 =
      (opening.run stateFile served).1 ++
        [((opening.run stateFile served).2.deal stateFile arrival).1] :=
    congrArg Prod.fst (Ledger.run_concat stateFile served arrival opening)
  have hlater : (opening.run stateFile (served ++ [arrival])).2 =
      ((opening.run stateFile served).2.deal stateFile arrival).2 :=
    congrArg Prod.snd (Ledger.run_concat stateFile served arrival opening)
  have hemitted' : t.emitted =
      (opening.run stateFile (served ++ [arrival])).1.countP Fate.isEmitted := by
    rw [hemitted, h.emitted_eq, hfates, List.countP_append, List.countP_singleton]
  have hrejected' : t.rejected =
      (opening.run stateFile (served ++ [arrival])).1.countP Fate.isRejected := by
    rw [hrejected, h.rejected_eq, hfates, List.countP_append, List.countP_singleton]
  constructor
  · intro other hother
    rcases List.mem_append.mp hother with hold | hnew
    · exact h.readable other hold
    · rw [List.mem_singleton.mp hnew]
      exact hreadable
  · have hlast : [((opening.run stateFile served).2.deal stateFile arrival).1].filterMap
        Fate.message? =
          ((opening.run stateFile served).2.deal stateFile arrival).1.message?.toList := by
      cases hmessage : ((opening.run stateFile served).2.deal stateFile arrival).1.message? with
      | none => simp [hmessage]
      | some message => simp [hmessage]
    rw [hfates, List.filterMap_append, hlast]
    exact hpublishes
  · exact hemitted'
  · exact hrejected'
  · rw [Ledger.countP_bringsMessage, Fate.countP_isOfMessage, hemitted', hrejected']
  · rw [hlater, ← hledger]
    rfl
  · rw [hlater, ← hledger]
    rfl

/-- Serving goes on as the ledger does until it ends. -/
theorem ends_serve (husable : Usable options.stateFile) (hlifetime : Digits.fit lifetime = true)
    {arrivals : List Arrival} (harrivals : ∀ arrival ∈ arrivals, arrival.IsWhole)
    (h : s.ledger.desk.Stands lifetime held)
    (hledger : s.ledger = (opening.run options.stateFile served).2)
    (haccount : Account config refusals options.stateFile opening served s)
    (hconsumed : s.consumed = served.countP Arrival.bringsMessage) :
    ∃ more rest, arrivals = more ++ rest ∧
      Ends config refusals options.stateFile opening (served ++ more) rest
        (serve options config arrivals s) := by
  induction arrivals generalizing served s held with
  | nil =>
      refine ⟨[], [], rfl, ?_⟩
      rw [List.append_nil]
      have hmetrics : s.ledger.desk.metrics =
          (opening.run options.stateFile served).2.desk.metrics := by
        rw [hledger]
      exact .all (haccount.of_tally haccount.publishes rfl rfl rfl rfl) hconsumed hmetrics
  | cons arrival rest ih =>
      have hwhole := harrivals arrival List.mem_cons_self
      have hserves := serves_step config husable hlifetime h haccount.publishes hwhole
      obtain ⟨held', hstands⟩ := Ledger.stands_deal h options.stateFile hwhole
      rw [hledger] at hserves hstands
      cases hstep : step options config arrival s with
      | ok _ t =>
          rw [hstep] at hserves
          cases hserves with
          | on hreadable hdealt hpublishes hcount hemitted hrejected =>
              have hconcat : (opening.run options.stateFile (served ++ [arrival])).2 =
                  ((opening.run options.stateFile served).2.deal options.stateFile arrival).2 :=
                congrArg Prod.snd (Ledger.run_concat options.stateFile served arrival opening)
              rw [← hdealt] at hstands
              obtain ⟨more, left, hsplit, hends⟩ := ih
                (fun other hother => harrivals other (List.mem_cons_of_mem arrival hother)) hstands
                (hdealt.trans hconcat.symm)
                (haccount.concat hreadable hdealt hpublishes hemitted hrejected)
                (by rw [hcount, hconsumed, List.countP_append, List.countP_singleton])
              refine ⟨arrival :: more, left, by rw [hsplit, List.cons_append], ?_⟩
              rw [List.append_assoc, List.singleton_append] at hends
              rw [serve, bind_of_ok hstep]
              exact hends
      | error fault t =>
          rw [hstep] at hserves
          cases hserves with
          | off hstops hfeed htree htally =>
              refine ⟨[], arrival :: rest, rfl, ?_⟩
              have hworld : t.desk.session.world = s.desk.session.world :=
                congrArg Tally.world htally
              have hcount : t.consumed = s.consumed + 1 := congrArg Tally.consumed htally
              rw [List.append_nil, serve, bind_of_error hstep]
              refine .stopped (haccount.of_tally ?_ (congrArg Tally.emitted htally)
                (congrArg Tally.rejected htally) hfeed htree) ?_ hstops
              · rw [hworld]
                exact haccount.publishes
              · rw [hcount, hconsumed]

end Service
end LiveFeed
