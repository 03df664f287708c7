/-
The operations of a feed whose times are whole numbers.  A push passes three checks, is told to the
subscribers, and leaves the live stamps and the new one; a cleanup leaves the live stamps; a read
sees them.  What is refused leaves the feed as it was.
-/
import LiveFeed.Proofs.Feed.Admission
import LiveFeed.Proofs.Log.Snapshot

namespace LiveFeed

namespace Feed

/-- A feed with whole times: its log, if there is one, holds the stamps in their order. -/
structure Holds (feed : Feed) (lifetime : Int) (held : Option (List Stamp)) : Prop where
  lifetime_eq : feed.lifetime = .int lifetime
  log_eq : feed.log = held.map (Log.stamped lifetime)
  ordered : Stamp.Ordered (held.getD [])

/-- A feed whose log, if there is one, holds the stamps in their order, for a lifetime that need not
be the one of the feed; without a log it is the lifetime that the next one would have. -/
structure Carries (feed : Feed) (lifetime : Int) (held : Option (List Stamp)) : Prop where
  lifetime_eq : held = none → feed.lifetime = .int lifetime
  log_eq : feed.log = held.map (Log.stamped lifetime)
  ordered : Stamp.Ordered (held.getD [])

theorem Holds.carries {feed : Feed} {lifetime : Int} {held : Option (List Stamp)}
    (h : feed.Holds lifetime held) : feed.Carries lifetime held :=
  ⟨fun _ => h.lifetime_eq, h.log_eq, h.ordered⟩

/-- The feed with the given stamps in its log. -/
def holding (feed : Feed) (lifetime : Int) (ss : List Stamp) : Feed :=
  { feed with log := some (Log.stamped lifetime ss) }

theorem Holds.holding {feed : Feed} {lifetime : Int} {held : Option (List Stamp)}
    (h : feed.Holds lifetime held) {ss : List Stamp} (hss : Stamp.Ordered ss) :
    (feed.holding lifetime ss).Holds lifetime (some ss) :=
  ⟨h.lifetime_eq, rfl, hss⟩

theorem Carries.holding {feed : Feed} {lifetime : Int} {held : Option (List Stamp)}
    (_ : feed.Carries lifetime held) {ss : List Stamp} (hss : Stamp.Ordered ss) :
    (feed.holding lifetime ss).Carries lifetime (some ss) :=
  ⟨nofun, rfl, hss⟩

variable {feed : Feed} {lifetime : Int} {held : Option (List Stamp)}

theorem Carries.snapshot_eq (h : feed.Carries lifetime held) :
    feed.snapshot = Snapshot.ofHeld lifetime held := by
  rw [snapshot, h.log_eq]
  cases held <;> rfl

/-- A log with whole times is loaded from its snapshot, under whatever lifetime. -/
theorem load_ofHeld (hlifetime : feed.lifetime = .int lifetime) (stored : Int)
    (hordered : Stamp.Ordered (held.getD [])) :
    feed.load (Snapshot.ofHeld stored held) =
      .ok { feed with log := held.map (Log.stamped lifetime) } := by
  cases held with
  | none => rfl
  | some ss =>
      have hdecode := Snapshot.decode_encode_stamped stored lifetime hordered
      rw [Option.getD_some, ← hlifetime] at hdecode
      have hload : feed.load (Snapshot.ofHeld stored (some ss)) =
          (do
            let log ← (Snapshot.decode (Snapshot.encode (Log.stamped stored ss))
              (some feed.lifetime)).mapError Fault.snapshot
            return { feed with log := some log }) := rfl
      rw [hload, hdecode]
      rfl

variable [Limits]

/-- The three checks of a push: its origin, its payload and the time. -/
def vet (authority : Text) (now : Int) (held : List Stamp) (origin data : Value) :
    Except Fault Bytes :=
  match authorise authority origin with
  | .error fault => .error fault
  | .ok () =>
      match Log.octets data with
      | .error fault => .error (.log fault)
      | .ok payload =>
          match Stamp.ahead? now held with
          | some latest => .error (.log (.ofStale (.int now) (.int latest)))
          | none => .ok payload

theorem vet_eq_ok_iff {authority : Text} {now : Int} {held : List Stamp} {origin data : Value}
    {payload : Bytes} :
    vet authority now held origin data = .ok payload ↔
      authorise authority origin = .ok () ∧ Log.octets data = .ok payload ∧
        Stamp.ahead? now held = none := by
  unfold vet
  cases authorise authority origin with
  | error fault => simp
  | ok _ =>
      cases Log.octets data with
      | error fault => simp
      | ok octets => cases Stamp.ahead? now held <;> simp

theorem authorise_eq_ok_iff {authority : Text} {origin : Value} :
    authorise authority origin = .ok () ↔ origin.same (.str authority) = true := by
  cases origin <;> simp [authorise, Value.same, Value.sameScalar, Value.number?]

theorem authorise_eq_ok_iff_eq {authority : Text} {origin : Value} :
    authorise authority origin = .ok () ↔ origin = .str authority := by
  rw [authorise_eq_ok_iff, Value.same_str_iff]

/-- Who is not let pass: the nameless, and whoever is not the authority. -/
theorem authorise_eq_error_iff {authority : Text} {origin : Value} {fault : Fault} :
    authorise authority origin = .error fault ↔
      origin = .null ∧ fault = .noOrigin ∨
        origin ≠ .null ∧ origin ≠ .str authority ∧ fault = .ofOrigin origin := by
  by_cases hnull : origin = .null
  · subst hnull
    simp [authorise, eq_comm]
  · by_cases hsame : origin = .str authority
    · rw [authorise_eq_ok_iff_eq.mpr hsame]
      simp [hsame]
    · have hother : origin.same (.str authority) = false := by
        rw [← Bool.not_eq_true, Value.same_str_iff]
        exact hsame
      have hwrong : authorise authority origin = .error (.ofOrigin origin) := by
        unfold authorise
        split
        · contradiction
        · simp [hother]
      simp [hwrong, hnull, hsame, eq_comm]

theorem authorise_authority (authority : Text) :
    authorise authority (.str authority) = .ok () := by
  simp [authorise_eq_ok_iff, Value.same, Value.sameScalar]

/-- A push of octets by the authority fails only because of the time. -/
theorem vet_authority (authority : Text) (now : Int) (held : List Stamp) (container : Container)
    (octets : Bytes) :
    vet authority now held (.str authority) (.bytes container octets) =
      match Stamp.ahead? now held with
      | some latest => .error (.log (.ofStale (.int now) (.int latest)))
      | none => .ok octets := by
  simp [vet, authorise_authority, Log.octets]

/-- A push of octets is refused because of its signer or because of the time. -/
theorem vet_eq_error {authority : Text} {now : Int} {held : List Stamp} {origin : Value}
    {payload : Bytes} {fault : Fault}
    (h : vet authority now held origin (.bytes .fixed payload) = .error fault) :
    fault = .noOrigin ∨ fault = .ofOrigin origin ∨
      ∃ latest, Stamp.ahead? now held = some latest ∧
        fault = .log (.ofStale (.int now) (.int latest)) := by
  unfold vet at h
  cases hauthorise : authorise authority origin with
  | error refusal =>
      rw [hauthorise] at h
      cases h
      rcases authorise_eq_error_iff.mp hauthorise with ⟨-, hnone⟩ | ⟨-, -, hwrong⟩
      · exact .inl hnone
      · exact .inr (.inl hwrong)
  | ok _ =>
      simp only [hauthorise, Log.octets] at h
      cases hahead : Stamp.ahead? now held with
      | none =>
          rw [hahead] at h
          cases h
      | some latest =>
          rw [hahead] at h
          cases h
          exact .inr (.inr ⟨latest, rfl, rfl⟩)

end Feed

namespace Session

variable {ω : Type} {lifetime now : Int} {held : Option (List Stamp)} {s : Session ω}

/-- A session in the middle of a push that has been admitted. -/
def admitted (s : Session ω) (lifetime : Int) (held : List Stamp) : Delivery ω :=
  { s.begin with clock := s.clock.read.2, logs := [Log.stamped lifetime held] }

theorem log?_begin (s : Session ω) : s.begin.log? = s.feed.log := by
  cases hlog : s.feed.log <;> simp [begin, Delivery.log?, hlog]

/-- In the beginning the log of the feed is the only one in use, and it is shown. -/
theorem mem_logs_begin {log : Log} : log ∈ s.begin.logs ↔ s.feed.log = some log := by
  simp [begin]

theorem lt_of_shown_begin {position : Nat} (h : s.begin.shown = some position) :
    position < s.begin.logs.length := by
  obtain ⟨log, hlog, rfl⟩ := Option.map_eq_some_iff.mp h
  simp [begin, hlog]

/-- An operation that ends with the log and the subscribers of its beginning has kept the feed. -/
theorem finish_eq {d : Delivery ω} (hlog : d.log? = s.feed.log)
    (hsubscribers : d.subscribers = s.feed.subscribers) :
    s.finish d = { s with clock := d.clock, world := d.world } := by
  simp only [finish, hlog, hsubscribers]

theorem finish_begin (s : Session ω) : s.finish s.begin = s := finish_eq (log?_begin s) rfl

theorem run_of_ok {α : Type} {act : Delivery.Act ω α} {a : α} {d : Delivery ω}
    (h : act s.begin = .ok a d) : run act s = .ok a (s.finish d) := by
  rw [run, h]

theorem run_of_error {α : Type} {act : Delivery.Act ω α} {fault : Feed.Fault} {d : Delivery ω}
    (h : act s.begin = .error fault d) : run act s = .error fault (s.finish d) := by
  rw [run, h]

theorem holding_begin (hfeed : s.feed.Carries lifetime held) :
    s.begin.ticked.holding = (0, s.admitted lifetime (held.getD [])) := by
  cases held with
  | none =>
      simp only [Delivery.ticked, Delivery.holding, begin, admitted, hfeed.log_eq,
        hfeed.lifetime_eq rfl, Option.map_none]
      rfl
  | some ss =>
      simp only [Delivery.ticked, Delivery.holding, begin, admitted, hfeed.log_eq,
        Option.map_some]
      rfl

/-- The session after one more reading of its clock. -/
def ticked (s : Session ω) : Session ω := { s with clock := s.clock.read.2 }

theorem finish_ticked (s : Session ω) : s.finish s.begin.ticked = s.ticked :=
  finish_eq (log?_begin s) rfl

theorem log?_admitted (hfeed : s.feed.Carries lifetime held) :
    (s.admitted lifetime (held.getD [])).log? = s.feed.log := by
  cases held with
  | none => simp [admitted, Delivery.log?, begin, hfeed.log_eq]
  | some ss => simp [admitted, Delivery.log?, begin, hfeed.log_eq]

theorem finish_admitted (hfeed : s.feed.Carries lifetime held) :
    s.finish (s.admitted lifetime (held.getD [])) = s.ticked := finish_eq (log?_admitted hfeed) rfl

theorem finish_of_undisturbed (hfeed : s.feed.Carries lifetime held) {d : Delivery ω}
    (hkept : Delivery.Undisturbed (s.admitted lifetime (held.getD [])) d) :
    (s.finish d).feed = s.feed := by
  obtain ⟨reads, world, rfl⟩ := hkept
  change { s.feed with
    log := (s.admitted lifetime (held.getD [])).log?
    subscribers := s.feed.subscribers } = s.feed
  rw [log?_admitted hfeed]

/-- What a feed shows at a time, none if it was never written. -/
def shownAt (lifetime now : Int) (held : Option (List Stamp)) : Option (List Bytes) :=
  held.map fun ss => (Stamp.liveAt lifetime now ss).map Stamp.payload

/-- While a push is told, readers are shown what the feed showed before, if the clock stands
still. -/
theorem shows_admitted (hfeed : s.feed.Carries lifetime held)
    (hstill : ∀ n, s.clock.face n = .ok (.int now)) :
    (s.admitted lifetime (held.getD [])).Shows (shownAt lifetime now held) := by
  intro reads world
  have hlog := log?_admitted hfeed
  have hlog' : ((s.admitted lifetime (held.getD [])).moved reads world).log? = s.feed.log := hlog
  rw [hfeed.log_eq] at hlog'
  unfold Delivery.read
  rw [bind_get, hlog']
  cases held with
  | none => exact ⟨reads, rfl⟩
  | some ss =>
      have hshows : ((s.admitted lifetime ss).moved reads world).clock.Shows now := hstill reads
      have hlive : (Log.stamped lifetime ss).live (.int now) =
          .ok ((Stamp.liveAt lifetime now ss).map Stamp.payload) := Log.live_stamped hfeed.ordered
      refine ⟨reads + 1, ?_⟩
      change (Delivery.consult >>= fun now => do
        return some (← Delivery.lift .log ((Log.stamped lifetime ss).live now))) _ = _
      rw [Option.getD_some, bind_of_ok (Delivery.consult_of_shows hshows), hlive,
        bind_of_ok (Delivery.lift_ok .log _ _)]
      rfl

section

variable [Limits]

/-- A push comes to one of the depths at which subscribers may push in turn. -/
theorem push_eq_pushWith (listener : Listener ω) (depth : Nat) (origin data : Value) :
    ∃ nested, Delivery.push listener depth origin data =
      Delivery.pushWith listener nested origin data := by
  cases depth with
  | zero => exact ⟨_, rfl⟩
  | succ depth => exact ⟨_, rfl⟩

theorem checkTime_admitted (s : Session ω) (lifetime : Int) (ss : List Stamp) :
    ((s.admitted lifetime ss).logAt 0).checkTime (.int now) =
      match Stamp.ahead? now ss with
      | some latest => .error (.ofStale (.int now) (.int latest))
      | none => .ok () :=
  Log.checkTime_stamped lifetime now ss

theorem pushWith_refused (hfeed : s.feed.Carries lifetime held) (hclock : s.clock.Shows now)
    (listener : Listener ω) (nested : Bytes → Delivery.Act ω Unit) (origin data : Value)
    {fault : Feed.Fault}
    (hvet : Feed.vet s.feed.authority now (held.getD []) origin data = .error fault) :
    ∃ d, Delivery.pushWith listener nested origin data s.begin = .error fault d ∧
      s.finish d = if (Feed.authorise s.feed.authority origin).isOk then s.ticked else s := by
  have hclock' : s.begin.clock.Shows now := hclock
  have hauthority : s.begin.authority = s.feed.authority := rfl
  rw [Delivery.pushWith_eq hclock', holding_begin hfeed, hauthority]
  unfold Feed.vet at hvet
  cases hauthorise : Feed.authorise s.feed.authority origin with
  | error refusal =>
      rw [hauthorise] at hvet
      cases hvet
      exact ⟨s.begin, rfl, finish_begin s⟩
  | ok _ =>
      cases hoctets : Log.octets data with
      | error refusal =>
          simp only [hauthorise, hoctets] at hvet
          cases hvet
          exact ⟨_, rfl, finish_ticked s⟩
      | ok payload =>
          simp only [checkTime_admitted]
          cases hahead : Stamp.ahead? now (held.getD []) with
          | none => simp [hauthorise, hoctets, hahead] at hvet
          | some latest =>
              simp only [hauthorise, hoctets, hahead] at hvet
              cases hvet
              exact ⟨_, rfl, finish_admitted hfeed⟩

/-- A push that passes the checks is told to the subscribers and settled. -/
theorem pushWith_vetted (hfeed : s.feed.Carries lifetime held) (hclock : s.clock.Shows now)
    (listener : Listener ω) (nested : Bytes → Delivery.Act ω Unit) (origin data : Value)
    {payload : Bytes}
    (hvet : Feed.vet s.feed.authority now (held.getD []) origin data = .ok payload) :
    Delivery.pushWith listener nested origin data s.begin =
      (Delivery.deliver listener nested ⟨payload, .int now⟩ >>= fun _ =>
        Delivery.settle 0 ⟨payload, .int now⟩) (s.admitted lifetime (held.getD [])) := by
  obtain ⟨hauthorise, hoctets, hahead⟩ := Feed.vet_eq_ok_iff.mp hvet
  have hauthorise' : Feed.authorise s.begin.authority origin = .ok () := hauthorise
  have hclock' : s.begin.clock.Shows now := hclock
  rw [Delivery.pushWith_eq hclock', holding_begin hfeed, hauthorise', hoctets]
  simp only [checkTime_admitted, hahead]

/-- A push that nobody has disturbed leaves the live stamps and the new one. -/
theorem settle_admitted (s : Session ω) (hordered : Stamp.Ordered (held.getD []))
    (hahead : Stamp.ahead? now (held.getD []) = none) (payload : Bytes) {d : Delivery ω}
    (hkept : Delivery.Undisturbed (s.admitted lifetime (held.getD [])) d) :
    Delivery.settle 0 ⟨payload, .int now⟩ d =
      .ok ⟨payload, .int now⟩
        { d with
          logs := [Log.stamped lifetime
            (Stamp.liveAt lifetime now (held.getD []) ++ [⟨payload, now⟩])]
          shown := some 0 } := by
  obtain ⟨reads, world, rfl⟩ := hkept
  have hpushed : (Log.stamped lifetime (held.getD [])).push (.int now) (.bytes .fixed payload) =
      .ok (Log.stamped lifetime
        (Stamp.liveAt lifetime now (held.getD []) ++ [⟨payload, now⟩])) := by
    rw [Log.push_stamped hordered, hahead]
  unfold Delivery.settle
  rw [bind_get]
  change (Delivery.lift .log ((Log.stamped lifetime (held.getD [])).push (.int now)
    (.bytes .fixed payload)) >>= _) _ = _
  rw [hpushed, bind_of_ok (Delivery.lift_ok .log _ _)]
  rfl

/-- What is left of a push that has been told to subscribers who left the feed alone. -/
theorem pushWith_admitted (hfeed : s.feed.Carries lifetime held) (hclock : s.clock.Shows now)
    (listener : Listener ω) (nested : Bytes → Delivery.Act ω Unit) (origin data : Value)
    {payload : Bytes}
    (hvet : Feed.vet s.feed.authority now (held.getD []) origin data = .ok payload)
    (hpassive : ∀ r ∈ s.feed.subscribers, r.isPassive = true) :
    Delivery.pushWith listener nested origin data s.begin =
      match Delivery.deliver listener nested ⟨payload, .int now⟩
          (s.admitted lifetime (held.getD [])) with
      | .error fault d => .error fault d
      | .ok _ d => .ok ⟨payload, .int now⟩
          { d with
            logs := [Log.stamped lifetime
              (Stamp.liveAt lifetime now (held.getD []) ++ [⟨payload, now⟩])]
            shown := some 0 } := by
  have hkept := Delivery.deliver_undisturbed listener nested ⟨payload, .int now⟩
    (s.admitted lifetime (held.getD [])) hpassive
  rw [pushWith_vetted hfeed hclock listener nested origin data hvet]
  cases hdeliver : Delivery.deliver listener nested ⟨payload, .int now⟩
      (s.admitted lifetime (held.getD [])) with
  | error fault d => exact bind_of_error hdeliver
  | ok _ d =>
      rw [hdeliver] at hkept
      rw [bind_of_ok hdeliver]
      exact settle_admitted s hfeed.ordered (Feed.vet_eq_ok_iff.mp hvet).2.2 payload hkept

/-- A push that fails a check leaves the session as it was, but for a reading of the clock. -/
theorem push_refused (hfeed : s.feed.Carries lifetime held) (hclock : s.clock.Shows now)
    (listener : Listener ω) (origin data : Value) {fault : Feed.Fault}
    (hvet : Feed.vet s.feed.authority now (held.getD []) origin data = .error fault) :
    push listener origin data s =
      .error fault (if (Feed.authorise s.feed.authority origin).isOk then s.ticked else s) := by
  obtain ⟨nested, hnested⟩ := push_eq_pushWith listener s.feed.reentrantPushes origin data
  obtain ⟨d, hrun, hfinish⟩ := pushWith_refused hfeed hclock listener nested origin data hvet
  rw [← hnested] at hrun
  rw [push, run_of_error hrun, hfinish]

/-- A push that passes the checks is stored, or a subscriber fails, perhaps with a refusal, and the
feed stays as it was. -/
theorem push_admitted (hfeed : s.feed.Carries lifetime held) (hclock : s.clock.Shows now)
    (listener : Listener ω) (origin data : Value) {payload : Bytes}
    (hvet : Feed.vet s.feed.authority now (held.getD []) origin data = .ok payload)
    (hpassive : ∀ r ∈ s.feed.subscribers, r.isPassive = true) :
    (∃ fault t, push listener origin data s = .error fault t ∧ t.feed = s.feed ∧
        Objects listener s.feed.subscribers fault) ∨
      ∃ t, push listener origin data s = .ok ⟨payload, .int now⟩ t ∧
        t.feed = s.feed.holding lifetime
          (Stamp.liveAt lifetime now (held.getD []) ++ [⟨payload, now⟩]) := by
  obtain ⟨nested, hnested⟩ := push_eq_pushWith listener s.feed.reentrantPushes origin data
  have hrun := pushWith_admitted hfeed hclock listener nested origin data hvet hpassive
  have hkept := Delivery.deliver_undisturbed listener nested ⟨payload, .int now⟩
    (s.admitted lifetime (held.getD [])) hpassive
  rw [← hnested] at hrun
  cases hdeliver : Delivery.deliver listener nested ⟨payload, .int now⟩
      (s.admitted lifetime (held.getD [])) with
  | error fault d =>
      rw [hdeliver] at hrun hkept
      exact Or.inl ⟨fault, s.finish d, by rw [push, run_of_error hrun],
        finish_of_undisturbed hfeed hkept, Delivery.objects_of_deliver nested _ hpassive hdeliver⟩
  | ok _ d =>
      rw [hdeliver] at hrun hkept
      obtain ⟨reads, world, rfl⟩ := hkept
      exact Or.inr ⟨_, by rw [push, run_of_ok hrun], rfl⟩

/-- A push that passes the checks is relayed to the passive subscribers, and stored if none of them
fails.  Readers among them are shown what the feed showed before. -/
theorem push_relayed (hfeed : s.feed.Carries lifetime held) (hclock : s.clock.Shows now)
    (listener : Listener ω) (origin data : Value) {payload : Bytes}
    (hvet : Feed.vet s.feed.authority now (held.getD []) origin data = .ok payload)
    (hpassive : ∀ r ∈ s.feed.subscribers, r.isPassive = true)
    (hstill : .read ∈ s.feed.subscribers → ∀ n, s.clock.face n = .ok (.int now)) :
    ∃ reads, (.read ∉ s.feed.subscribers → reads = s.clock.read.2.reads) ∧
      push listener origin data s =
      match Delivery.relay listener (shownAt lifetime now held) ⟨payload, .int now⟩ 0
          s.feed.subscribers s.world with
      | .error fault world => .error fault
          { s with clock := { s.clock with reads }, world }
      | .ok _ world => .ok ⟨payload, .int now⟩
          { feed := s.feed.holding lifetime
              (Stamp.liveAt lifetime now (held.getD []) ++ [⟨payload, now⟩])
            clock := { s.clock with reads }
            world } := by
  obtain ⟨nested, hnested⟩ := push_eq_pushWith listener s.feed.reentrantPushes origin data
  have hrun := pushWith_admitted hfeed hclock listener nested origin data hvet hpassive
  obtain ⟨reads, hreads, hdeliver⟩ := Delivery.deliver_passive listener nested ⟨payload, .int now⟩
    (d := s.admitted lifetime (held.getD [])) hpassive
    fun hread => shows_admitted hfeed (hstill hread)
  rw [← hnested, hdeliver] at hrun
  refine ⟨reads, hreads, ?_⟩
  change Delivery.push listener s.feed.reentrantPushes origin data s.begin =
    match (s.admitted lifetime (held.getD [])).outcome reads
      (Delivery.relay listener (shownAt lifetime now held) ⟨payload, .int now⟩ 0
        s.feed.subscribers s.world) with
    | .error fault d => _
    | .ok _ d => _ at hrun
  rw [push]
  cases hrelay : Delivery.relay listener (shownAt lifetime now held) ⟨payload, .int now⟩ 0
      s.feed.subscribers s.world with
  | error fault world =>
      rw [hrelay] at hrun
      rw [run_of_error hrun]
      exact congrArg (EStateM.Result.error fault) (finish_eq (log?_admitted hfeed) rfl)
  | ok _ world =>
      rw [hrelay] at hrun
      rw [run_of_ok hrun]
      rfl

/-- With subscribers that only take note, all that can go wrong after the checks is a note. -/
theorem push_recorded (hfeed : s.feed.Carries lifetime held) (hclock : s.clock.Shows now)
    (listener : Listener ω) (origin data : Value) {payload : Bytes}
    (hvet : Feed.vet s.feed.authority now (held.getD []) origin data = .ok payload)
    (hrecord : ∀ r ∈ s.feed.subscribers, r = .record) :
    push listener origin data s =
      match Delivery.chorus listener ⟨payload, .int now⟩ 0 s.feed.subscribers.length s.world with
      | .error fault world => .error fault { s.ticked with world }
      | .ok _ world => .ok ⟨payload, .int now⟩
          { feed := s.feed.holding lifetime
              (Stamp.liveAt lifetime now (held.getD []) ++ [⟨payload, now⟩])
            clock := s.ticked.clock
            world } := by
  have hpassive (r : Reaction) (hr : r ∈ s.feed.subscribers) : r.isPassive = true := by
    rw [hrecord r hr]
    rfl
  have hunread : .read ∉ s.feed.subscribers := fun hr => nomatch hrecord .read hr
  obtain ⟨reads, hreads, hrun⟩ := push_relayed hfeed hclock listener origin data hvet hpassive
    fun hr => absurd hr hunread
  rw [List.eq_replicate_of_mem hrecord, Delivery.relay_replicate, hreads hunread] at hrun
  exact hrun

/-- A cleanup leaves the live stamps, unless the newest one is ahead of the time. -/
theorem clean_eq (hfeed : s.feed.Carries lifetime held) (hclock : s.clock.Shows now) :
    clean s =
      match Stamp.ahead? now (held.getD []) with
      | some latest => .error (.log (.ofStale (.int now) (.int latest))) s.ticked
      | none => .ok (Stamp.expiredAt lifetime now (held.getD [])).length
          { s.ticked with
            feed := s.feed.holding lifetime (Stamp.liveAt lifetime now (held.getD [])) } := by
  have hconsult : Delivery.consult s.begin = .ok (.int now) s.begin.ticked :=
    Delivery.consult_of_shows hclock
  have hlog : s.begin.log?.getD (Log.empty s.begin.lifetime) =
      Log.stamped lifetime (held.getD []) := by
    rw [log?_begin, hfeed.log_eq]
    cases held with
    | none => exact congrArg Log.empty (hfeed.lifetime_eq rfl)
    | some ss => rfl
  have hrun : Delivery.clean s.begin =
      (Delivery.lift .log ((Log.stamped lifetime (held.getD [])).evict (.int now)) >>=
        fun evicted => do
          Delivery.store (← Delivery.hold) evicted.2
          return evicted.1) s.begin.ticked := by
    unfold Delivery.clean
    rw [bind_of_ok hconsult, bind_get, bind_get]
    change (Delivery.lift .log ((s.begin.log?.getD (Log.empty s.begin.lifetime)).evict
      (.int now)) >>= _) _ = _
    rw [hlog]
  rw [Log.evict_stamped hfeed.ordered] at hrun
  unfold clean
  cases hahead : Stamp.ahead? now (held.getD []) with
  | some latest =>
      simp only [hahead] at hrun
      rw [bind_of_error (Delivery.lift_error .log _ _)] at hrun
      rw [run_of_error hrun, finish_ticked]
  | none =>
      simp only [hahead] at hrun
      rw [bind_of_ok (Delivery.lift_ok .log _ _), bind_of_ok (Delivery.hold_eq _),
        holding_begin hfeed] at hrun
      rw [run_of_ok hrun]
      rfl

end

/-- A feed without a log does not ask the clock. -/
theorem read_of_no_log (hlog : s.feed.log = none) : read s = .ok none s := by
  have hnone := log?_begin s
  rw [hlog] at hnone
  have hrun : Delivery.read s.begin = .ok none s.begin := by
    unfold Delivery.read
    rw [bind_get, hnone]
    rfl
  rw [read, run_of_ok hrun, finish_begin]

/-- A read shows what is live in the log. -/
theorem read_of_live {log : Log} {payloads : List Bytes} (hlog : s.feed.log = some log)
    (hclock : s.clock.Shows now) (hlive : log.live (.int now) = .ok payloads) :
    read s = .ok (some payloads) s.ticked := by
  have hsome := log?_begin s
  rw [hlog] at hsome
  have hconsult : Delivery.consult s.begin = .ok (.int now) s.begin.ticked :=
    Delivery.consult_of_shows hclock
  have hrun : Delivery.read s.begin = .ok (some payloads) s.begin.ticked := by
    unfold Delivery.read
    rw [bind_get, hsome]
    change (Delivery.consult >>= fun now => do
      return some (← Delivery.lift .log (log.live now))) s.begin = _
    rw [bind_of_ok hconsult, hlive, bind_of_ok (Delivery.lift_ok .log _ _)]
    rfl
  rw [read, run_of_ok hrun, finish_ticked]

/-- A read shows the payloads of the live stamps. -/
theorem read_eq (hfeed : s.feed.Carries lifetime held) (hclock : s.clock.Shows now) :
    read s =
      match held with
      | none => .ok none s
      | some ss => .ok (some ((Stamp.liveAt lifetime now ss).map Stamp.payload)) s.ticked := by
  cases held with
  | none => exact read_of_no_log hfeed.log_eq
  | some ss => exact read_of_live hfeed.log_eq hclock (Log.live_stamped hfeed.ordered)

theorem load_ofHeld (hlifetime : s.feed.lifetime = .int lifetime) (stored : Int)
    (hordered : Stamp.Ordered (held.getD [])) :
    s.load (Snapshot.ofHeld stored held) =
      .ok () { s with feed := { s.feed with log := held.map (Log.stamped lifetime) } } := by
  simp only [load, Feed.load_ofHeld hlifetime stored hordered]

end Session
end LiveFeed
