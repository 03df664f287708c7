/-
A request to a service.  The service does what its ledger does and sends the message that the fate
of the request demands, unless the broker refuses that message, which breaks the service off.
-/
import LiveFeed.Proofs.Request.Restart
import LiveFeed.Proofs.Service.Sending

namespace LiveFeed

namespace Desk

variable [Limits]

/-- Whatever a request consists of can be put in words. -/
def IsWorded (request : List (Text × Value)) : Prop := ∀ f ∈ request, f.2.wordless? = none

theorem IsWorded.argument {request : List (Text × Value)} (h : IsWorded request) (key : String) :
    (argument request key).wordless? = none := by
  unfold Desk.argument Value.field?
  cases hfound : request.find? (fun f => f.1 = .ofString key) with
  | none => exact Value.wordless?_null
  | some f => exact h f (List.mem_of_find?_eq_some hfound)

/-- The verdicts that are refusals give reasons, which can be put in words. -/
theorem reason?_of_verdict {authority : Text} {now : Int} {held : List Stamp}
    {request : List (Text × Value)} (hwords : IsWorded request) {fault : Feed.Fault}
    (h : verdict authority now held request = .unauthorised fault) :
    ∃ reason, fault.reason? = some reason := by
  unfold verdict vetted at h
  repeat' split at h
  all_goals cases h
  rename_i hauthorise
  unfold Feed.authorise at hauthorise
  split at hauthorise
  · cases hauthorise
    exact ⟨.badOrigin, rfl⟩
  · split at hauthorise
    · cases hauthorise
    · cases hauthorise
      rw [Feed.Fault.ofOrigin, hwords.argument]
      exact ⟨.wrongAuthority, rfl⟩

/-- A refusal leaves the feed as it was. -/
theorem Stands.feed_of_refused {ω : Type} {lifetime : Int} {held : Option (List Stamp)}
    {desk later : Desk ω} (h : desk.Stands lifetime held) {listener : Listener ω}
    {request : List (Text × Value)} {outcome : Outcome}
    (hhandle : Desk.handle listener request desk = .ok outcome later)
    (hrefused : outcome.isAccepted = false) : later.session.feed = desk.session.feed := by
  obtain ⟨now, hclock⟩ := h.whole desk.session.clock.reads
  have hpassive : ∀ r ∈ desk.session.feed.subscribers, r.isPassive = true := by
    rw [h.subscribers_eq]
    simp [Reaction.isPassive]
  have hsettles := settles_handle h.holds.carries hclock hpassive listener request desk.metrics
  rw [hhandle] at hsettles
  exact hsettles.feed_of_rejected hrefused

end Desk

namespace Service

/-- The ledger of a service at work. -/
def State.ledger (s : State) : Ledger := ⟨s.desk.movedTo (), s.tree⟩

/-- What a service has sent and counted. -/
structure Tally where
  world : Outside
  consumed : Nat
  emitted : Nat
  rejected : Nat

/-- The tally of a service at work. -/
def State.tally (s : State) : Tally :=
  ⟨s.desk.session.world, s.consumed, s.emitted, s.rejected⟩

/-- A step succeeds and leaves a ledger and a tally. -/
def Leaves (act : Act Unit) (s : State) (l : Ledger) (tally : Tally) : Prop :=
  ∃ t, act s = .ok () t ∧ t.ledger = l ∧ t.tally = tally

variable {act next : Act Unit} {s : State} {l l' : Ledger} {tally tally' : Tally}

theorem Leaves.bind (hact : Leaves act s l tally)
    (hnext : ∀ t, t.ledger = l → t.tally = tally → Leaves next t l' tally') :
    Leaves (act >>= fun _ => next) s l' tally' := by
  obtain ⟨t, hrun, hledger, htally⟩ := hact
  obtain ⟨u, hrun', hleft⟩ := hnext t hledger htally
  exact ⟨u, by rw [bind_of_ok hrun, hrun'], hleft⟩

theorem leaves_pure (s : State) : Leaves (pure ()) s s.ledger s.tally := ⟨s, rfl, rfl, rfl⟩

theorem leaves_print (line : Text) (s : State) : Leaves (print line) s s.ledger s.tally :=
  ⟨_, rfl, rfl, rfl⟩

theorem leaves_skip (reason : Text) (s : State) :
    Leaves (skip reason) s s.ledger.countError s.tally :=
  ⟨_, rfl, rfl, rfl⟩

theorem leaves_setClock (seconds : Option Value) (s : State) :
    Leaves (setClock seconds) s (s.ledger.setClock seconds) s.tally := by
  cases seconds with
  | none => exact leaves_pure s
  | some seconds => exact ⟨_, rfl, rfl, rfl⟩

/-- What readers of a feed that stands see is counted. -/
theorem leaves_gauge (h : s.ledger.desk.Stands lifetime held) :
    Leaves gauge s s.ledger.gauge s.tally := by
  obtain ⟨now, hclock⟩ := h.whole s.ledger.desk.session.clock.reads
  have hledger := Session.read_eq h.holds.carries hclock
  have hservice := Session.read_eq (s := s.desk.session) h.holds.carries hclock
  unfold Ledger.gauge
  cases held with
  | none =>
      simp only [] at hledger hservice
      have hread : onFeed Session.read s = .ok none s := by
        simp only [onFeed, hservice]
      simp only [hledger]
      exact ⟨_, bind_of_ok hread, rfl, rfl⟩
  | some ss =>
      simp only [] at hledger hservice
      have hread : onFeed Session.read s =
          .ok (some ((Stamp.liveAt lifetime now ss).map Stamp.payload))
            { s with desk.session := s.desk.session.ticked } := by
        simp only [onFeed, hservice]
      simp only [hledger]
      exact ⟨_, bind_of_ok hread, rfl, rfl⟩

/-- Says how far the service has come, once in a while. -/
def progress : Act Unit := do
  let s ← get
  if s.consumed % progressInterval = 0 then print ("  ... " ++ s.text)

theorem leaves_progress (s : State) : Leaves progress s s.ledger s.tally := by
  unfold progress
  by_cases hdue : s.consumed % progressInterval = 0
  · refine ⟨{ s with output := s.output.print ("  ... " ++ s.text) }, ?_, rfl, rfl⟩
    rw [bind_get, if_pos hdue]
    rfl
  · refine ⟨s, ?_, rfl, rfl⟩
    rw [bind_get, if_neg hdue]
    rfl

variable [Limits]

/-- What a service and its ledger make of a request: the same, unless the broker refuses the message
about an accepted push. -/
inductive Matches (config : Config) (desk : Desk Outside) :
    EStateM.Result Desk.Fault (Desk Unit) Outcome →
      EStateM.Result Desk.Fault (Desk Outside) Outcome → Prop where
  | failed {fault : Desk.Fault} {d : Desk Unit} (hmalformed : isMalformed fault = true) :
      Matches config desk (.error fault d) (.error fault (d.movedTo desk.session.world))
  | quiet {outcome : Outcome} {d : Desk Unit} (hquiet : ∀ event, outcome ≠ .emitted event) :
      Matches config desk (.ok outcome d) (.ok outcome (d.movedTo desk.session.world))
  | sent {event : Event} {d : Desk Unit} {world : Outside}
      (hsent : publishTo config (Message.emitted event) desk.session.world = .ok world) :
      Matches config desk (.ok (.emitted event) d) (.ok (.emitted event) (d.movedTo world))
  | unsent {event : Event} {d : Desk Unit} {stopped : Desk Outside}
      (hunsent : publishTo config (Message.emitted event) desk.session.world = .error .queueFull)
      (hfeed : stopped.session.feed = desk.session.feed)
      (hworld : stopped.session.world = desk.session.world) :
      Matches config desk (.ok (.emitted event) d) (.error (.feed .queueFull) stopped)

variable {config : Config} {lifetime : Int} {held : Option (List Stamp)}

theorem matches_refuse (call : Call) {fault : Feed.Fault}
    (hcounts : fault.reason? = none → isMalformed (.feed fault) = true) (desk : Desk Outside)
    {s : Session Outside}
    (hworld : s.world = desk.session.world) (m : Metrics) :
    Matches config desk (Desk.refuse call fault (⟨s.feed, s.clock, ()⟩ : Session Unit) m)
      (Desk.refuse call fault s m) := by
  have hmoved (m' : Metrics) : Desk.mk s m' =
      (Desk.mk (⟨s.feed, s.clock, ()⟩ : Session Unit) m').movedTo desk.session.world := by
    rw [← hworld]
    rfl
  simp only [Desk.refuse, hmoved]
  cases hreason : fault.reason? with
  | none => exact .failed (hcounts hreason)
  | some reason =>
      refine .quiet ?_
      rintro _ ⟨⟩

theorem scribe_told (number : Nat) (event : Event) (world : Unit) :
    scribe (.told number event) world =
      ((Json.text? (Message.emitted event)).mapError .unwritable).map fun _ => () := rfl

/-- An admitted push is sent, or the broker refuses it, or it has too many digits to be sent. -/
theorem matches_admitted (desk : Desk Outside) (now : Int) (held : List Stamp) (payload : Bytes) :
    Matches config desk
      ((Desk.Verdict.admitted payload).carryOut scribe lifetime now held (desk.movedTo ()))
      ((Desk.Verdict.admitted payload).carryOut (listener config) lifetime now held desk) := by
  have hlistener : listener config (.told 0 ⟨payload, .int now⟩) desk.session.world =
      publishTo config (Message.emitted ⟨payload, .int now⟩) desk.session.world := rfl
  simp only [Desk.Verdict.carryOut, hlistener, scribe_told]
  by_cases hfit : Digits.fit now = true
  · obtain ⟨text, htext⟩ := Message.exists_text?_emitted payload hfit
    rw [htext]
    rcases publishTo_cases htext config desk.session.world with ⟨world, hsent⟩ | hunsent
    · rw [hsent]
      exact .sent hsent
    · rw [hunsent]
      exact .unsent hunsent rfl rfl
  · have htext := Message.text?_emitted_of_not_fit payload hfit
    rw [htext, publishTo_of_unwritable htext]
    exact .failed rfl

theorem isMalformed_of_verdict {authority : Text} {now : Int} {held : List Stamp}
    {request : List (Text × Value)} {fault : Desk.Fault}
    (h : Desk.verdict authority now held request = .unreadable fault) :
    isMalformed fault = true := by
  have hpayload : Desk.payload request = .error fault := by
    unfold Desk.verdict Desk.vetted at h
    repeat' split at h
    all_goals cases h
    assumption
  unfold Desk.payload at hpayload
  split at hpayload
  · rename_i text _
    cases hdecode : Hex.decode text with
    | error position =>
        rw [hdecode] at hpayload
        cases hpayload
        rfl
    | ok payload =>
        rw [hdecode] at hpayload
        cases hpayload
  · cases hpayload
    rfl

/-- A log that is ahead of the time refuses, or has too many digits to do so. -/
theorem isMalformed_of_ofStale {now latest : Int}
    (h : Feed.Fault.reason? (.log (.ofStale (.int now) (.int latest))) = none) :
    isMalformed (.feed (.log (.ofStale (.int now) (.int latest)))) = true := by
  rw [Log.Fault.ofStale_int] at h ⊢
  generalize (Digits.fit now && Digits.fit latest) = fits at h ⊢
  cases fits with
  | true => cases h
  | false => rfl

/-- A request means the same to a service and to its ledger. -/
theorem matches_handle {desk : Desk Outside} (h : desk.Stands lifetime held)
    {request : List (Text × Value)} (hwords : Desk.IsWorded request) :
    Matches config desk (Desk.handle scribe request (desk.movedTo ()))
      (Desk.handle (listener config) request desk) := by
  have hmoved : (desk.movedTo ()).Stands lifetime held := h.of_eq rfl rfl
  obtain ⟨now, hclock⟩ := h.whole desk.session.clock.reads
  have hledger := Desk.handle_eq_carryOut hmoved.holds.carries hclock hmoved.subscribers_eq scribe
    request desk.metrics
  have hservice := Desk.handle_eq_carryOut h.holds.carries hclock h.subscribers_eq (listener config)
    request desk.metrics
  change Matches config desk (Desk.handle scribe request ⟨(desk.movedTo ()).session, desk.metrics⟩)
    (Desk.handle (listener config) request ⟨desk.session, desk.metrics⟩)
  rw [hledger, hservice]
  change Matches config desk
    ((Desk.verdict desk.session.feed.authority now (held.getD []) request).carryOut scribe lifetime
      now (held.getD []) (desk.movedTo ()))
    ((Desk.verdict desk.session.feed.authority now (held.getD []) request).carryOut
      (listener config) lifetime now (held.getD []) desk)
  cases hverdict : Desk.verdict desk.session.feed.authority now (held.getD []) request with
  | unknown call =>
      have hcall : call = Desk.argument request "call" := by
        unfold Desk.verdict Desk.vetted at hverdict
        repeat' split at hverdict
        all_goals cases hverdict
        rfl
      have hfault : Desk.Fault.ofCall call = .unknownCall call := by
        rw [Desk.Fault.ofCall, hcall, hwords.argument]
      simp only [Desk.Verdict.carryOut, hfault]
      exact .failed rfl
  | unreadable fault => exact .failed (isMalformed_of_verdict hverdict)
  | unauthorised fault =>
      obtain ⟨reason, hreason⟩ := Desk.reason?_of_verdict hwords hverdict
      refine matches_refuse .push (fun hnone => ?_) desk rfl _
      rw [hreason] at hnone
      cases hnone
  | stale call latest =>
      simp only [Desk.Verdict.carryOut]
      exact matches_refuse (s := desk.session.ticked) call isMalformed_of_ofStale desk rfl _
  | cleaned =>
      refine .quiet ?_
      rintro _ ⟨⟩
  | admitted payload => exact matches_admitted desk now _ payload

/-- A state file that the file system can be asked for has a path with a name. -/
def Usable (stateFile : Option Text) : Prop :=
  ∀ path, stateFile = some path →
    (Path.ofText path).name.isEmpty = false ∧ (Path.ofText path).fault? = none

/-- A feed that stands is saved, unless the file system refuses. -/
theorem leaves_save {options : Options} (husable : Usable options.stateFile)
    (hlifetime : Digits.fit lifetime = true) (h : s.ledger.desk.Stands lifetime held) :
    Leaves (save options) s (s.ledger.save options.stateFile) s.tally := by
  unfold save Ledger.save
  cases hfile : options.stateFile with
  | none => exact leaves_pure s
  | some path =>
      obtain ⟨hname, hfault⟩ := husable path hfile
      have hwritten : (Json.write s.desk.session.feed.snapshot).stopped = none := by
        have hsnapshot : s.desk.session.feed.snapshot = Snapshot.ofHeld lifetime held :=
          h.holds.carries.snapshot_eq
        rw [hsnapshot]
        exact Snapshot.stopped_ofHeld hlifetime h.timesFit
      obtain ⟨failure, metrics, tree, hpersist⟩ :=
        StateFile.persist_eq_ok hname hfault hwritten s.desk.metrics s.tree
      have hsaved : ending (StateFile.persist path s.ledger.desk.session.feed
          (s.ledger.desk.metrics, s.ledger.tree)) = (metrics, tree) := congrArg ending hpersist
      simp only [hsaved]
      cases failure with
      | none =>
          refine ⟨{ s with desk.metrics := metrics, tree }, ?_, rfl, rfl⟩
          rw [bind_get, hpersist]
          rfl
      | some line =>
          refine ⟨{ s with
            desk.metrics := metrics, tree, output := s.output.report line }, ?_, rfl, rfl⟩
          rw [bind_get, hpersist]
          rfl

/-- Saves the log after an accepted request. -/
def saveAfter (options : Options) (outcome : Outcome) : Act Unit :=
  if outcome.isAccepted then save options else pure ()

theorem conclude_eq (options : Options) (config : Config) (outcome : Outcome) :
    conclude options config outcome =
      saveAfter options outcome >>= fun _ => announce config outcome >>= fun _ => gauge >>=
        fun _ => progress := by
  unfold conclude saveAfter
  split
  · rfl
  · rfl

theorem leaves_saveAfter {options : Options} (husable : Usable options.stateFile)
    (hlifetime : Digits.fit lifetime = true) (h : s.ledger.desk.Stands lifetime held)
    (outcome : Outcome) :
    Leaves (saveAfter options outcome) s (s.ledger.saveAfter options.stateFile outcome)
      s.tally := by
  unfold saveAfter Ledger.saveAfter
  split
  · exact leaves_save husable hlifetime h
  · exact leaves_pure s

/-- After an outcome the log is saved, the outcome announced and the feed read. -/
theorem leaves_conclude {options : Options} (husable : Usable options.stateFile)
    (hlifetime : Digits.fit lifetime = true) (h : s.ledger.desk.Stands lifetime held)
    {outcome : Outcome}
    (hannounce : ∀ t, t.tally = s.tally → Leaves (announce config outcome) t t.ledger tally) :
    Leaves (conclude options config outcome) s
      (s.ledger.saveAfter options.stateFile outcome).gauge tally := by
  have hstands := Ledger.stands_saveAfter h options.stateFile outcome
  rw [conclude_eq]
  apply (leaves_saveAfter husable hlifetime h outcome).bind
  intro t hledger htally
  have hannounced := hannounce t htally
  rw [hledger] at hannounced
  apply hannounced.bind
  intro t hledger htally
  rw [← hledger] at hstands
  have hgauged := leaves_gauge hstands
  rw [hledger, htally] at hgauged
  apply hgauged.bind
  intro t hledger htally
  have hprogress := leaves_progress t
  rw [hledger, htally] at hprogress
  exact hprogress

theorem leaves_announce_emitted (config : Config) (event : Event) (s : State) :
    Leaves (announce config (.emitted event)) s s.ledger
      { s.tally with emitted := s.tally.emitted + 1 } :=
  ⟨_, rfl, rfl, rfl⟩

theorem leaves_announce_cleaned (config : Config) (count : Nat) (s : State) :
    Leaves (announce config (.cleaned count)) s s.ledger s.tally :=
  ⟨_, rfl, rfl, rfl⟩

theorem leaves_announce_rejected {call : Call} {reason : Reason} {detail : String}
    {world : Outside}
    (hsent : publishTo config (Message.rejected call reason detail) s.desk.session.world =
      .ok world) :
    Leaves (announce config (.rejected call reason detail)) s s.ledger
      { s.tally with world, rejected := s.tally.rejected + 1 } := by
  have hpublish : publish config (Outcome.rejected call reason detail).message s =
      .ok () { s with desk.session.world := world } := by
    simp only [publish, Outcome.message, hsent]
  exact ⟨_, bind_of_ok hpublish, rfl, rfl⟩

/-- A refusal that the broker does not take stops the service where it is. -/
theorem conclude_unsent {options : Options} {call : Call} {reason : Reason} {detail : String}
    (hunsent : publishTo config (Message.rejected call reason detail) s.desk.session.world =
      .error .queueFull) :
    conclude options config (.rejected call reason detail) s = .error (.feed .queueFull) s := by
  have hpublish : publish config (Outcome.rejected call reason detail).message s =
      .error (.feed .queueFull) s := by
    simp only [publish, Outcome.message, hunsent]
  have hsave : saveAfter options (.rejected call reason detail) s = .ok () s := rfl
  have hannounce : announce config (.rejected call reason detail) s =
      .error (.feed .queueFull) s := bind_of_error hpublish
  rw [conclude_eq, bind_of_ok hsave, bind_of_error hannounce]

/-- What a request to a service comes to: the ledger is followed, or the broker refuses the message
that the fate of the request demands. -/
inductive Follows (config : Config) (refusals : List Nat) (messages : List Value) (fate : Fate)
    (l : Ledger) (s : State) : EStateM.Result Fault State Unit → Prop where
  | on {t : State} (hledger : t.ledger = l)
      (hpublishes : Publishes config refusals (messages ++ fate.message?.toList)
        t.desk.session.world)
      (hconsumed : t.consumed = s.consumed)
      (hemitted : t.emitted = s.emitted + if fate.isEmitted then 1 else 0)
      (hrejected : t.rejected = s.rejected + if fate.isRejected then 1 else 0) :
      Follows config refusals messages fate l s (.ok () t)
  | off {fault : Fault} {t : State} {message : Value} (hmessage : fate.message? = some message)
      (hrefused : messages.length ∈ refusals)
      (hfault : fault.message? = some (.ofString Outside.queueFullMessage))
      (hfeed : t.desk.session.feed = s.desk.session.feed) (htree : t.tree = s.tree)
      (htally : t.tally = s.tally) :
      Follows config refusals messages fate l s (.error fault t)

variable {refusals : List Nat} {messages : List Value} {fate : Fate}

/-- A step that leaves a ledger and a tally follows the ledger if it has sent and counted what the
fate demands. -/
theorem Leaves.follows {t : State} (h : Leaves act t l tally)
    (hpublishes : Publishes config refusals (messages ++ fate.message?.toList) tally.world)
    (hconsumed : tally.consumed = s.consumed)
    (hemitted : tally.emitted = s.emitted + if fate.isEmitted then 1 else 0)
    (hrejected : tally.rejected = s.rejected + if fate.isRejected then 1 else 0) :
    Follows config refusals messages fate l s (act t) := by
  obtain ⟨u, hrun, hledger, rfl⟩ := h
  rw [hrun]
  exact .on hledger hpublishes hconsumed hemitted hrejected

section

variable {options : Options} {t : State}

theorem follows_conclude_emitted (husable : Usable options.stateFile)
    (hlifetime : Digits.fit lifetime = true) (h : t.ledger.desk.Stands lifetime held)
    {event : Event}
    (hpublishes : Publishes config refusals (messages ++ [Message.emitted event])
      t.desk.session.world)
    (hconsumed : t.consumed = s.consumed) (hemitted : t.emitted = s.emitted)
    (hrejected : t.rejected = s.rejected) :
    Follows config refusals messages (.handled (.emitted event))
      (t.ledger.saveAfter options.stateFile (.emitted event)).gauge s
      (conclude options config (.emitted event) t) := by
  have hannounce : ∀ u, u.tally = t.tally → Leaves (announce config (.emitted event)) u u.ledger
      { t.tally with emitted := t.tally.emitted + 1 } := by
    intro u hu
    rw [← hu]
    exact leaves_announce_emitted config event u
  have hconclude := leaves_conclude husable hlifetime h hannounce
  exact hconclude.follows hpublishes hconsumed (congrArg (· + 1) hemitted) hrejected

theorem follows_conclude_cleaned (husable : Usable options.stateFile)
    (hlifetime : Digits.fit lifetime = true) (h : t.ledger.desk.Stands lifetime held) {count : Nat}
    (hpublishes : Publishes config refusals messages t.desk.session.world)
    (hconsumed : t.consumed = s.consumed) (hemitted : t.emitted = s.emitted)
    (hrejected : t.rejected = s.rejected) :
    Follows config refusals messages (.handled (.cleaned count))
      (t.ledger.saveAfter options.stateFile (.cleaned count)).gauge s
      (conclude options config (.cleaned count) t) := by
  have hannounce : ∀ u, u.tally = t.tally →
      Leaves (announce config (.cleaned count)) u u.ledger t.tally := by
    intro u hu
    rw [← hu]
    exact leaves_announce_cleaned config count u
  have hconclude := leaves_conclude husable hlifetime h hannounce
  refine hconclude.follows ?_ hconsumed hemitted hrejected
  simp only [Fate.message?, Option.toList_none, List.append_nil]
  exact hpublishes

theorem follows_conclude_rejected (husable : Usable options.stateFile)
    (hlifetime : Digits.fit lifetime = true) (h : t.ledger.desk.Stands lifetime held)
    {call : Call} {reason : Reason} {detail : String}
    (hpublishes : Publishes config refusals messages t.desk.session.world)
    (hfeed : t.desk.session.feed = s.desk.session.feed) (htree : t.tree = s.tree)
    (htally : t.tally = s.tally) :
    Follows config refusals messages (.handled (.rejected call reason detail))
      (t.ledger.saveAfter options.stateFile (.rejected call reason detail)).gauge s
      (conclude options config (.rejected call reason detail) t) := by
  obtain ⟨text, htext⟩ := Message.exists_text?_rejected call reason detail
  rcases publishTo_cases htext config t.desk.session.world with ⟨world, hsent⟩ | hunsent
  · have hannounce : ∀ u, u.tally = t.tally →
        Leaves (announce config (.rejected call reason detail)) u u.ledger
          { s.tally with world, rejected := s.tally.rejected + 1 } := by
      intro u hu
      have hworld : u.desk.session.world = t.desk.session.world := congrArg Tally.world hu
      rw [← hworld] at hsent
      rw [← htally, ← hu]
      exact leaves_announce_rejected hsent
    have hconclude := leaves_conclude husable hlifetime h hannounce
    exact hconclude.follows (hpublishes.sent hsent) rfl rfl rfl
  · rw [conclude_unsent hunsent]
    exact .off rfl (hpublishes.refused hunsent) rfl hfeed htree htally

end

/-- A request follows the ledger, unless the broker refuses the message about it. -/
theorem follows_apply {options : Options} (config : Config) (husable : Usable options.stateFile)
    (hlifetime : Digits.fit lifetime = true) (h : s.ledger.desk.Stands lifetime held)
    (hpublishes : Publishes config refusals messages s.desk.session.world)
    {request : List (Text × Value)} (hwords : Desk.IsWorded request) :
    Follows config refusals messages (s.ledger.apply options.stateFile request).1
      (s.ledger.apply options.stateFile request).2 s (apply options config request s) := by
  have hset (t : State) : (set t : Act PUnit) s = .ok () t := rfl
  have hdesk : s.desk.Stands lifetime held := h.of_eq rfl rfl
  have hmatches : Matches config s.desk (Desk.handle scribe request s.ledger.desk)
      (Desk.handle (listener config) request s.desk) := matches_handle hdesk hwords
  obtain ⟨held', hstands⟩ := h.handle request
  unfold apply Ledger.apply
  rw [bind_get]
  cases hledger : Desk.handle scribe request s.ledger.desk with
  | error fault d =>
      rw [hledger] at hmatches
      cases hservice : Desk.handle (listener config) request s.desk with
      | ok outcome desk =>
          rw [hservice] at hmatches
          cases hmatches
      | error fault desk =>
          rw [hservice] at hmatches
          cases hmatches with
          | failed hmalformed =>
              simp only [bind_of_ok (hset _), hmalformed, ↓reduceIte]
              refine (leaves_skip _ { s with desk := d.movedTo s.desk.session.world }).follows
                ?_ rfl rfl rfl
              simp only [Fate.message?, Option.toList_none, List.append_nil]
              exact hpublishes
  | ok outcome d =>
      rw [hledger] at hmatches hstands
      cases hservice : Desk.handle (listener config) request s.desk with
      | error fault desk =>
          rw [hservice] at hmatches
          cases hmatches with
          | unsent hunsent hfeed hworld =>
              simp only [bind_of_ok (hset _)]
              exact .off rfl (hpublishes.refused hunsent) rfl hfeed rfl
                (congrArg (fun world => Tally.mk world _ _ _) hworld)
      | ok outcome desk =>
          have hrefused := hdesk.feed_of_refused hservice
          rw [hservice] at hmatches
          simp only [bind_of_ok (hset _)]
          cases hmatches with
          | sent hsent =>
              exact follows_conclude_emitted (t := { s with desk := d.movedTo _ }) husable hlifetime
                hstands (hpublishes.sent hsent) rfl rfl rfl
          | quiet hquiet =>
              cases outcome with
              | emitted event => exact absurd rfl (hquiet event)
              | cleaned count =>
                  exact follows_conclude_cleaned
                    (t := { s with desk := d.movedTo s.desk.session.world }) husable hlifetime
                    hstands hpublishes rfl rfl rfl
              | rejected call reason detail =>
                  exact follows_conclude_rejected
                    (t := { s with desk := d.movedTo s.desk.session.world }) husable hlifetime
                    hstands hpublishes (hrefused rfl) rfl rfl

end Service
end LiveFeed
