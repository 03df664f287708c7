/-
Who is called.  Whatever is asked of a feed one thing after another, only a push that passes its
checks calls anybody, and it calls the subscribers in the order of registration, each of them once,
with the event that it stores; those that are registered meanwhile are called as well, and after a
call that fails there are no more.
-/
import LiveFeed.Proofs.Feed.Operation
import LiveFeed.Proofs.Feed.Reentrance
import LiveFeed.Proofs.Feed.Round

namespace LiveFeed

/-- What a subscriber fails with when it is told of a payload, if it fails. -/
def Reaction.raises? (payload : Bytes) : Reaction → Option Raised
  | .fail none raised => some raised
  | .fail (some chosen) raised => if payload = chosen then some raised else none
  | _ => none

/-- The first of numbered subscribers that fails when it is told of a payload, and what the push
ends with then. -/
def Feed.firstFailing? (payload : Bytes) (subscribers : List (Reaction × Nat)) :
    Option (Nat × Feed.Fault) :=
  subscribers.findSome? fun numbered =>
    (numbered.1.raises? payload).map fun raised => (numbered.2, .subscriber numbered.2 raised)

namespace Feed

theorem firstFailing?_cons (payload : Bytes) (reaction : Reaction) (number : Nat)
    (rest : List (Reaction × Nat)) :
    firstFailing? payload ((reaction, number) :: rest) =
      ((reaction.raises? payload).map fun raised => (number, .subscriber number raised)).or
        (firstFailing? payload rest) := by
  rw [firstFailing?, List.findSome?_cons]
  cases reaction.raises? payload <;> rfl

theorem firstFailing?_append (payload : Bytes) (first second : List (Reaction × Nat)) :
    firstFailing? payload (first ++ second) =
      (firstFailing? payload first).or (firstFailing? payload second) :=
  List.findSome?_append

/-- Those who only take note do not fail. -/
theorem firstFailing?_replicate_record (payload : Bytes) (count number : Nat) :
    firstFailing? payload ((List.replicate count Reaction.record).zipIdx number) = none := by
  rw [firstFailing?, List.findSome?_eq_none_iff]
  intro numbered hnumbered
  rw [List.eq_of_mem_replicate (List.fst_mem_of_mem_zipIdx hnumbered)]
  rfl

end Feed

/-- The call that a note tells of: who was called, and with which event. -/
def Note.call? : Note → Option (Nat × Event)
  | .told number event => some (number, event)
  | .read .. | .cleaned .. => none

/-- The calls that notes tell of, in their order. -/
def Note.calls (notes : List Note) : List (Nat × Event) := notes.filterMap Note.call?

namespace Delivery

variable {ω : Type} {listener : Listener ω} {event : Event} {number returned : Nat}
  {reaction : Reaction} {failure : Option Feed.Fault} {d e : Delivery ω}

/-! What is written down of a round -/

section Written

variable {notes : ω → List Note}

/-- No calls have been written down. -/
def Quiet (notes : ω → List Note) (d e : Delivery ω) : Prop :=
  Note.calls (notes e.world) = Note.calls (notes d.world)

instance : IsPreorder (Delivery ω) (Quiet notes) where
  refl _ := rfl
  trans _ _ _ hde hef := hef.trans hde

theorem quiet_leave_read (hlistener : listener.WritesDown notes) (number : Nat)
    (payloads : Option (List Bytes)) :
    Leads (Quiet notes) (leave listener (.read number payloads)) := by
  intro d
  obtain ⟨later, hlater, hnotes⟩ := hlistener (.read number payloads) d.world
  rw [leave_eq, hlater]
  change Note.calls (notes later) = _
  rw [hnotes, Note.calls, List.filterMap_append]
  exact List.append_nil _

theorem quiet_consult : Leads (Quiet notes) (consult : Act ω Value) := by
  intro d
  have hset : Quiet notes d { d with clock := d.clock.read.2 } := rfl
  exact IsTrans.trans _ _ _ hset (leads_lift .clock d.clock.read.1 _)

variable [Limits]

/-- Whether it returns or fails, a call is written down once. -/
theorem calls_of_call (hlistener : listener.WritesDown notes) (hmild : reaction.isMild = true)
    (number : Nat) (event : Event) (d : Delivery ω) :
    Note.calls (notes (ending (call listener event number reaction d)).world) =
      Note.calls (notes d.world) ++ [(number, event)] := by
  obtain ⟨later, hlater, hnotes⟩ := hlistener (.told number event) d.world
  have htold : leave listener (.told number event) d = .ok () { d with world := later } := by
    rw [leave_eq, hlater]
  have hcalls : Note.calls (notes later) = Note.calls (notes d.world) ++ [(number, event)] := by
    rw [hnotes, Note.calls, List.filterMap_append]
    rfl
  unfold call react
  rw [bind_of_ok htold, ← hcalls]
  cases reaction with
  | record => rfl
  | fail only raised =>
      cases only with
      | none => rfl
      | some payload => by_cases hsame : event.data = payload <;> simp only [hsame] <;> rfl
  | read =>
      have hread : Leads (Quiet notes) (read >>= fun payloads =>
          leave listener (.read number payloads)) :=
        Leads.bind (leads_read quiet_consult) (quiet_leave_read hlistener number)
      exact hread { d with world := later }
  | enrol => rfl
  | clean => contradiction
  | reset => contradiction
  | push data => contradiction

/-- How many calls a round consists of: those that return, and the one that fails. -/
def callCount (returned : Nat) (failure : Option Feed.Fault) : Nat :=
  returned + failure.toList.length

/-- A round is written down call by call, in the order of registration, with one event. -/
theorem Round.calls_eq (hlistener : listener.WritesDown notes)
    (h : Round listener event number d returned failure e)
    (hmild : ∀ r ∈ d.subscribers, r.isMild = true) :
    Note.calls (notes e.world) = Note.calls (notes d.world) ++
      (List.range' number (callCount returned failure)).map (·, event) := by
  induction h with
  | finished _ => exact (List.append_nil _).symm
  | @failed number reaction fault d e hnext hcall =>
      have hcalls := calls_of_call hlistener (hmild _ (List.mem_of_getElem? hnext)) number event d
      rw [hcall] at hcalls
      exact hcalls
  | @called number returned reaction failure d e f hnext hcall _ ih =>
      have hfirst := hmild _ (List.mem_of_getElem? hnext)
      have hcalls := calls_of_call hlistener hfirst number event d
      have hgrown := grown_of_call hfirst hcall
      rw [hcall] at hcalls
      have hcount : callCount (returned + 1) failure = callCount returned failure + 1 :=
        Nat.add_right_comm returned 1 _
      rw [ih (hgrown.isMild hmild), hcount, List.range'_succ, List.map_cons,
        ← List.singleton_append, ← List.append_assoc]
      exact congrArg (· ++ _) hcalls

end Written

/-! Which call fails -/

section Failing

/-- A feed that can be read whenever it is asked: its clock shows whole numbers, and so do the
entries of its log, in their order. -/
structure Legible (d : Delivery ω) : Prop where
  clock : d.clock.IsWhole
  log : ∀ log, d.log? = some log → ∃ lifetime ss, log = Log.stamped lifetime ss ∧ Stamp.Ordered ss

theorem Grown.legible {count : Nat} (h : Grown count d e) (hd : d.Legible) : e.Legible := by
  obtain ⟨reads, world, rfl⟩ := h
  exact ⟨hd.clock, hd.log⟩

theorem read_legible (h : d.Legible) : ∃ shown e, read d = .ok shown e := by
  unfold read
  rw [bind_get]
  cases hlog : d.log? with
  | none => exact ⟨none, d, rfl⟩
  | some log =>
      obtain ⟨lifetime, ss, rfl, hordered⟩ := h.log log hlog
      obtain ⟨now, hnow⟩ := h.clock d.clock.reads
      refine ⟨some ((Stamp.liveAt lifetime now ss).map Stamp.payload), d.ticked, ?_⟩
      change (consult >>= fun now => do
        return some (← lift .log ((Log.stamped lifetime ss).live now))) d = _
      rw [bind_of_ok (consult_of_shows hnow), Log.live_stamped hordered,
        bind_of_ok (lift_ok .log _ _)]
      rfl

variable [Limits]

/-- If notes are taken, those who fail at the payload fail, and all others return. -/
theorem call_of_accepts (hlistener : listener.Accepts) (hmild : reaction.isMild = true)
    (h : d.Legible) (number : Nat) (event : Event) :
    match reaction.raises? event.data with
    | some raised =>
        ∃ e, call listener event number reaction d = .error (.subscriber number raised) e
    | none => ∃ e, call listener event number reaction d = .ok () e := by
  obtain ⟨world, hworld⟩ := hlistener (.told number event) d.world
  have htold : leave listener (.told number event) d = .ok () { d with world } := by
    rw [leave_eq, hworld]
  unfold call react
  rw [bind_of_ok htold]
  cases reaction with
  | record => exact ⟨_, rfl⟩
  | fail only raised =>
      cases only with
      | none => exact ⟨_, rfl⟩
      | some chosen =>
          by_cases hsame : event.data = chosen <;>
          · simp only [Reaction.raises?, hsame, ↓reduceIte]
            exact ⟨_, rfl⟩
  | read =>
      have hlegible : Legible { d with world } := ⟨h.clock, h.log⟩
      obtain ⟨shown, e, hread⟩ := read_legible hlegible
      obtain ⟨later, hlater⟩ := hlistener (.read number shown) e.world
      refine ⟨{ e with world := later }, (bind_of_ok hread).trans ?_⟩
      rw [leave_eq, hlater]
  | enrol => exact ⟨_, rfl⟩
  | clean => contradiction
  | reset => contradiction
  | push data => contradiction

/-- If notes are taken, a round ends with the first subscriber that fails at the payload, and goes
to the end of the list if there is none. -/
theorem Round.failure_eq (hlistener : listener.Accepts)
    (h : Round listener event number d returned failure e)
    (hmild : ∀ r ∈ d.subscribers, r.isMild = true) (hlegible : d.Legible) :
    failure.map (fun fault => (number + returned, fault)) =
      Feed.firstFailing? event.data ((d.subscribers.drop number).zipIdx number) := by
  induction h with
  | finished hend =>
      rw [List.drop_eq_nil_of_le (List.getElem?_eq_none_iff.mp hend)]
      rfl
  | @failed number reaction fault d e hnext hcall =>
      have hfails := call_of_accepts hlistener (hmild _ (List.mem_of_getElem? hnext)) hlegible
        number event
      rw [drop_of_next hnext, List.zipIdx_cons, Feed.firstFailing?_cons]
      cases hraises : reaction.raises? event.data with
      | none =>
          obtain ⟨_, hreturns⟩ := hraises ▸ hfails
          rw [hcall] at hreturns
          cases hreturns
      | some raised =>
          obtain ⟨_, herror⟩ := hraises ▸ hfails
          rw [hcall] at herror
          cases herror
          rfl
  | @called number returned reaction failure d e f hnext hcall _ ih =>
      have hfirst := hmild _ (List.mem_of_getElem? hnext)
      have hfails := call_of_accepts hlistener hfirst hlegible number event
      rw [drop_of_next hnext, List.zipIdx_cons, Feed.firstFailing?_cons]
      cases hraises : reaction.raises? event.data with
      | some raised =>
          obtain ⟨_, herror⟩ := hraises ▸ hfails
          rw [hcall] at herror
          cases herror
      | none =>
          have hgrown := grown_of_call hfirst hcall
          have hlt : number < d.subscribers.length := (List.getElem?_eq_some_iff.mp hnext).1
          have hrest := ih (hgrown.isMild hmild) (hgrown.legible hlegible)
          -- Those who are registered meanwhile never fail: the first one to fail was there before.
          rw [hgrown.drop_eq hlt, List.zipIdx_append, Feed.firstFailing?_append,
            Feed.firstFailing?_replicate_record, Option.or_none, Nat.add_right_comm] at hrest
          exact hrest

end Failing

end Delivery

/-! What is asked of a feed -/

/-- A step in the life of a feed: one more subscriber, or an operation. -/
inductive Step where
  | subscribe (reaction : Reaction)
  | perform (operation : Operation)

/-- Whether a step registers no other subscriber than a mild one. -/
def Step.isMild : Step → Bool
  | .subscribe reaction => reaction.isMild
  | .perform _ => true

namespace Session

variable {ω : Type} {lifetime now : Int} {held : Option (List Stamp)} {s t : Session ω}
  {listener : Listener ω} {payload : Bytes} {returned : Nat} {failure : Option Feed.Fault}

/-- A feed with whole times and mild subscribers, and a clock that shows whole numbers. -/
structure IsMild (s : Session ω) (lifetime : Int) : Prop where
  carries : ∃ held, s.feed.Carries lifetime held
  mild : ∀ r ∈ s.feed.subscribers, r.isMild = true
  clock : s.clock.IsWhole

/-- The one that fails was not to register anybody. -/
theorem count_enrol_callCount {subscribers : List Reaction}
    (h : failure.map (fun fault => (returned, fault)) =
      Feed.firstFailing? payload subscribers.zipIdx) :
    (subscribers.take (Delivery.callCount returned failure)).count .enrol =
      (subscribers.take returned).count .enrol := by
  cases failure with
  | none => rfl
  | some fault =>
      obtain ⟨⟨reaction, index⟩, hmem, hfails⟩ := List.exists_of_findSome?_eq_some h.symm
      obtain ⟨raised, hraises, hsame⟩ := Option.map_eq_some_iff.mp hfails
      cases hsame
      obtain ⟨hlt, hreaction⟩ := List.mem_zipIdx' hmem
      have hother : subscribers[index] ≠ .enrol := by
        intro henrol
        rw [hreaction, henrol] at hraises
        cases hraises
      change (subscribers.take (index + 1)).count .enrol = _
      rw [List.take_add_one, List.getElem?_eq_getElem hlt, Option.toList_some, List.count_append,
        List.count_singleton, if_neg (by simpa using hother), Nat.add_zero]

theorem IsMild.of_feed_eq (h : s.IsMild lifetime) (hfeed : t.feed = s.feed)
    (hface : t.clock.face = s.clock.face) : t.IsMild lifetime := by
  refine ⟨?_, ?_, ?_⟩
  · rw [hfeed]
    exact h.carries
  · rw [hfeed]
    exact h.mild
  · rw [Clock.IsWhole, hface]
    exact h.clock

section

variable [Limits]

def step (listener : Listener ω) (s : Session ω) : Step → Session ω
  | .subscribe reaction => { s with feed := s.feed.subscribe reaction }
  | .perform operation => (s.perform listener operation).2

/-- Goes through steps one after the other. -/
def follow (listener : Listener ω) (s : Session ω) (steps : List Step) : Session ω :=
  steps.foldl (step listener) s

/-- What has been heard of a payload that was pushed at a time, when the log held the given stamps.
The subscribers were called in one round, from the first one on and with one event, and those who
were to register one more subscriber, and returned, have done it.  If all have returned, the list
has come to its end, and the payload is stored with the time; else the log is as it was.  Of
subscribers whose notes are taken, the first one that fails at the payload was the last one to be
called. -/
structure Heard (listener : Listener ω) (lifetime now : Int) (ss : List Stamp) (payload : Bytes)
    (s : Session ω) (returned : Nat) (failure : Option Feed.Fault) (t : Session ω) : Prop where
  round : ∃ d, Delivery.Round listener ⟨payload, .int now⟩ 0 (s.admitted lifetime ss) returned
    failure d ∧ t.world = d.world ∧ t.feed.subscribers = d.subscribers
  subscribers_eq : t.feed.subscribers = s.feed.subscribers ++
    List.replicate ((s.feed.subscribers.take returned).count .enrol) .record
  all_called : failure = none → returned = t.feed.subscribers.length
  stored : failure = none → t.feed.log =
    some (Log.stamped lifetime (Stamp.liveAt lifetime now ss ++ [⟨payload, now⟩]))
  kept : failure ≠ none → t.feed.log = s.feed.log
  failure_eq : listener.Accepts → failure.map (fun fault => (returned, fault)) =
    Feed.firstFailing? payload s.feed.subscribers.zipIdx
  registered : listener.Accepts →
    (s.feed.subscribers.take (Delivery.callCount returned failure)).count .enrol =
      (s.feed.subscribers.take returned).count .enrol
  calls_eq : ∀ notes : ω → List Note, listener.WritesDown notes →
    Note.calls (notes t.world) = Note.calls (notes s.world) ++
      (List.range (Delivery.callCount returned failure)).map (·, ⟨payload, .int now⟩)

/-- If all have returned, all that were to register one more subscriber have done it. -/
theorem Heard.subscribers_of_none {ss : List Stamp}
    (h : s.Heard listener lifetime now ss payload returned none t) :
    t.feed.subscribers = s.feed.subscribers ++
      List.replicate (s.feed.subscribers.count .enrol) .record := by
  have hlength := h.all_called rfl
  rw [h.subscribers_eq, List.length_append] at hlength
  have hall := h.subscribers_eq
  rwa [List.take_of_length_le (by omega)] at hall

theorem failure_eq_of_round (hfeed : s.feed.Carries lifetime held)
    (hmild : ∀ r ∈ s.feed.subscribers, r.isMild = true) (hwhole : s.clock.IsWhole)
    {d : Delivery ω} (hround : Delivery.Round listener ⟨payload, .int now⟩ 0
      (s.admitted lifetime (held.getD [])) returned failure d) (hlistener : listener.Accepts) :
    failure.map (fun fault => (returned, fault)) =
      Feed.firstFailing? payload s.feed.subscribers.zipIdx := by
  have hlegible : (s.admitted lifetime (held.getD [])).Legible := by
    refine ⟨hwhole, fun log hshown => ?_⟩
    rw [log?_admitted hfeed, hfeed.log_eq] at hshown
    obtain ⟨ss, rfl, rfl⟩ := Option.map_eq_some_iff.mp hshown
    exact ⟨lifetime, ss, rfl, hfeed.ordered⟩
  have hfailure := hround.failure_eq hlistener hmild hlegible
  simp only [Nat.zero_add] at hfailure
  exact hfailure

/-- What has been heard follows from the round of calls. -/
theorem heard_of_round (hfeed : s.feed.Carries lifetime held)
    (hmild : ∀ r ∈ s.feed.subscribers, r.isMild = true) (hwhole : s.clock.IsWhole)
    {d : Delivery ω} (hround : Delivery.Round listener ⟨payload, .int now⟩ 0
      (s.admitted lifetime (held.getD [])) returned failure d)
    (hworld : t.world = d.world) (hsubscribers : t.feed.subscribers = d.subscribers)
    (hstored : failure = none → t.feed.log = some (Log.stamped lifetime
      (Stamp.liveAt lifetime now (held.getD []) ++ [⟨payload, now⟩])))
    (hkept : failure ≠ none → t.feed.log = s.feed.log) :
    s.Heard listener lifetime now (held.getD []) payload returned failure t where
  round := ⟨d, hround, hworld, hsubscribers⟩
  subscribers_eq := hsubscribers.trans (hround.grown hmild).subscribers_eq
  all_called := by
    rintro rfl
    rw [hsubscribers, hround.length_eq hmild (Nat.zero_le _), Nat.zero_add]
  stored := hstored
  kept := hkept
  failure_eq := failure_eq_of_round hfeed hmild hwhole hround
  registered := fun hlistener =>
    count_enrol_callCount (failure_eq_of_round hfeed hmild hwhole hround hlistener)
  calls_eq := by
    intro notes hlistener
    rw [hworld, hround.calls_eq hlistener hmild, ← List.range_eq_range']
    rfl

/-- A push that passes the checks is heard of by the subscribers. -/
theorem push_heard (hfeed : s.feed.Carries lifetime held) (hclock : s.clock.Shows now)
    (hmild : ∀ r ∈ s.feed.subscribers, r.isMild = true) (hwhole : s.clock.IsWhole)
    (listener : Listener ω) {origin data : Value}
    (hvet : Feed.vet s.feed.authority now (held.getD []) origin data = .ok payload) :
    ∃ returned failure t,
      push listener origin data s = Delivery.conclude failure ⟨payload, .int now⟩ t ∧
      s.Heard listener lifetime now (held.getD []) payload returned failure t ∧
      t.feed.lifetime = s.feed.lifetime ∧ t.clock.face = s.clock.face := by
  obtain ⟨nested, hnested⟩ := push_eq_pushWith listener s.feed.reentrantPushes origin data
  have hrun := pushWith_vetted hfeed hclock listener nested origin data hvet
  rw [← hnested] at hrun
  obtain ⟨returned, failure, d, hround, hdeliver⟩ :=
    Delivery.deliver_round (d := s.admitted lifetime (held.getD [])) hmild listener nested
      ⟨payload, .int now⟩
  obtain ⟨hlogs, hshown, hface⟩ := (hround.grown hmild).kept
  cases failure with
  | some fault =>
      refine ⟨returned, some fault, s.finish d,
        run_of_error (hrun.trans (bind_of_error hdeliver)), ?_, rfl, hface⟩
      exact heard_of_round hfeed hmild hwhole hround rfl rfl nofun
        fun _ => hshown.trans (log?_admitted hfeed)
  | none =>
      obtain ⟨-, -, hahead⟩ := Feed.vet_eq_ok_iff.mp hvet
      have hheld : d.logs[0]? = some (Log.stamped lifetime (held.getD [])) := by
        rw [hlogs]
        rfl
      have hsettle := Delivery.settle_eq hheld hfeed.ordered hahead payload
      rw [Stamp.absorb_of_ne_nil (List.cons_ne_nil _ _)] at hsettle
      refine ⟨returned, none, _, run_of_ok (hrun.trans ((bind_of_ok hdeliver).trans hsettle)), ?_,
        rfl, hface⟩
      exact heard_of_round hfeed hmild hwhole hround rfl rfl
        (fun _ => Delivery.log?_showing (List.getElem?_eq_some_iff.mp hheld).1 _)
        fun hne => absurd rfl hne

/-- Who is called when something is asked of a session, by the time of its clock and the stamps of
its feed: the subscribers are called if a push passes the checks, and nobody otherwise. -/
structure CallsInOrder (s : Session ω) (listener : Listener ω) (lifetime : Int) : Prop where
  ready : ∃ now held, s.clock.Shows now ∧ s.feed.Carries lifetime held
  push : ∀ now held, s.clock.Shows now → s.feed.Carries lifetime held → ∀ origin data,
    match Feed.vet s.feed.authority now (held.getD []) origin data with
    | .error fault => ∃ t, push listener origin data s = .error fault t ∧ t.world = s.world ∧
        t.feed = s.feed
    | .ok payload => ∃ returned failure t,
        push listener origin data s = Delivery.conclude failure ⟨payload, .int now⟩ t ∧
        s.Heard listener lifetime now (held.getD []) payload returned failure t
  clean : (ending (clean s)).world = s.world ∧
    (ending (clean s)).feed.subscribers = s.feed.subscribers
  read : (ending (read s)).world = s.world ∧
    (ending (read s)).feed.subscribers = s.feed.subscribers
  subscribe : ∀ reaction, (s.step listener (.subscribe reaction)).world = s.world ∧
    (s.step listener (.subscribe reaction)).feed.subscribers = s.feed.subscribers ++ [reaction]

theorem IsMild.callsInOrder (h : s.IsMild lifetime) (listener : Listener ω) :
    s.CallsInOrder listener lifetime := by
  obtain ⟨held, hfeed⟩ := h.carries
  obtain ⟨now, hclock⟩ := h.clock s.clock.reads
  refine ⟨⟨now, held, hclock, hfeed⟩, ?_, ?_, ?_, fun _ => ⟨rfl, rfl⟩⟩
  · intro now held hclock hfeed origin data
    cases hvet : Feed.vet s.feed.authority now (held.getD []) origin data with
    | error fault =>
        refine ⟨_, push_refused hfeed hclock listener origin data hvet, ?_⟩
        split <;> exact ⟨rfl, rfl⟩
    | ok payload =>
        obtain ⟨returned, failure, t, hpush, hheard, -⟩ :=
          push_heard hfeed hclock h.mild h.clock listener hvet
        exact ⟨returned, failure, t, hpush, hheard⟩
  · rw [clean_eq hfeed hclock]
    cases Stamp.ahead? now (held.getD []) <;> exact ⟨rfl, rfl⟩
  · rw [read_eq hfeed hclock]
    cases held <;> exact ⟨rfl, rfl⟩

/-- After a push that was heard of, a feed is of the same kind. -/
theorem IsMild.of_heard (h : s.IsMild lifetime) (hfeed : s.feed.Carries lifetime held)
    (hahead : Stamp.ahead? now (held.getD []) = none)
    (hheard : s.Heard listener lifetime now (held.getD []) payload returned failure t)
    (hlifetime : t.feed.lifetime = s.feed.lifetime) (hface : t.clock.face = s.clock.face) :
    t.IsMild lifetime := by
  refine ⟨?_, ?_, ?_⟩
  · cases failure with
    | none =>
        exact ⟨some _, nofun, hheard.stored rfl, hfeed.ordered.record hahead lifetime payload⟩
    | some fault =>
        refine ⟨held, fun hnone => ?_, (hheard.kept nofun).trans hfeed.log_eq, hfeed.ordered⟩
        rw [hlifetime, hfeed.lifetime_eq hnone]
  · intro r hr
    rw [hheard.subscribers_eq] at hr
    rcases List.mem_append.mp hr with hold | hnew
    · exact h.mild r hold
    · exact Reaction.isMild_of_mem_replicate hnew
  · rw [Clock.IsWhole, hface]
    exact h.clock

theorem IsMild.perform (h : s.IsMild lifetime) (listener : Listener ω) (operation : Operation) :
    (s.perform listener operation).2.IsMild lifetime := by
  obtain ⟨held, hfeed⟩ := h.carries
  obtain ⟨now, hclock⟩ := h.clock s.clock.reads
  cases operation with
  | push origin data =>
      cases hvet : Feed.vet s.feed.authority now (held.getD []) origin data with
      | error fault =>
          simp only [Session.perform, push_refused hfeed hclock listener origin data hvet]
          split
          · exact h.of_feed_eq rfl rfl
          · exact h
      | ok payload =>
          obtain ⟨-, -, hahead⟩ := Feed.vet_eq_ok_iff.mp hvet
          obtain ⟨returned, failure, t, hpush, hheard, hlifetime, hface⟩ :=
            push_heard hfeed hclock h.mild h.clock listener hvet
          have hmild := h.of_heard hfeed hahead hheard hlifetime hface
          cases failure <;>
          · simp only [Session.perform, hpush, Delivery.conclude]
            exact hmild
  | clean =>
      simp only [Session.perform, clean_eq hfeed hclock]
      cases hahead : Stamp.ahead? now (held.getD []) with
      | some latest => exact h.of_feed_eq rfl rfl
      | none =>
          exact ⟨⟨_, hfeed.holding (hfeed.ordered.liveAt lifetime now)⟩, h.mild, h.clock⟩
  | read =>
      simp only [Session.perform, read_eq hfeed hclock]
      cases held with
      | none => exact h
      | some ss => exact h.of_feed_eq rfl rfl

theorem IsMild.step (h : s.IsMild lifetime) (listener : Listener ω) {step : Step}
    (hstep : step.isMild = true) : (s.step listener step).IsMild lifetime := by
  cases step with
  | perform operation => exact h.perform listener operation
  | subscribe reaction =>
      obtain ⟨held, hfeed⟩ := h.carries
      refine ⟨⟨held, hfeed.lifetime_eq, hfeed.log_eq, hfeed.ordered⟩, ?_, h.clock⟩
      intro r hr
      rcases List.mem_append.mp hr with hold | hnew
      · exact h.mild r hold
      · rw [List.mem_singleton.mp hnew]
        exact hstep

theorem IsMild.follow (h : s.IsMild lifetime) (listener : Listener ω) {steps : List Step}
    (hsteps : ∀ step ∈ steps, step.isMild = true) : (s.follow listener steps).IsMild lifetime := by
  induction steps generalizing s with
  | nil => exact h
  | cons first rest ih =>
      obtain ⟨hfirst, hrest⟩ := List.forall_mem_cons.mp hsteps
      exact ih (h.step listener hfirst) hrest

/-- Whatever steps a feed has gone through, its subscribers are called in order: by each push that
passes the checks all those are called that have been registered, in the order of registration and
each of them once, also those that are registered meanwhile, up to the first one that fails; and by
nothing else.  A subscriber may fail by itself, or because its note is refused, at whatever events
the surroundings choose. -/
theorem follow_calls_in_order (listener : Listener ω) (s : Session ω) (lifetime : Int)
    (h : s.IsMild lifetime) (steps : List Step) (hsteps : ∀ step ∈ steps, step.isMild = true) :
    (s.follow listener steps).CallsInOrder listener lifetime :=
  (h.follow listener hsteps).callsInOrder listener

end

open scoped Limits

/-- A subscriber that registers another one, and then one that fails at a payload: with that payload
both are called, with another one the late subscriber is called after them. -/
theorem follow_calls_in_order_of_late :
    let listener : Listener (List Note) := fun note notes => .ok (notes ++ [note])
    let s : Session (List Note) := ⟨Feed.new "ann" (.int 10), Clock.showing (.int 5), []⟩
    let t := s.follow listener [.subscribe .enrol, .subscribe (.fail (some [9]) .error)]
    (∃ u, push listener (.str "ann") (.bytes .fixed [9]) t = .error (.subscriber 1 .error) u ∧
      Note.calls u.world = [(0, ⟨[9], .int 5⟩), (1, ⟨[9], .int 5⟩)] ∧ u.feed.log = none) ∧
    ∃ u, push listener (.str "ann") (.bytes .fixed [7]) t = .ok ⟨[7], .int 5⟩ u ∧
      Note.calls u.world = [(0, ⟨[7], .int 5⟩), (1, ⟨[7], .int 5⟩), (2, ⟨[7], .int 5⟩)] ∧
      u.feed.subscribers = [.enrol, .fail (some [9]) .error, .record] := by
  intro listener s t
  have hlistener : listener.WritesDown id := fun note notes => ⟨notes ++ [note], rfl, rfl⟩
  have hmild : s.IsMild 10 :=
    ⟨⟨none, fun _ => rfl, rfl, List.Pairwise.nil⟩, nofun, fun _ => ⟨5, rfl⟩⟩
  have hsteps : ∀ step ∈ [Step.subscribe .enrol, .subscribe (.fail (some [9]) .error)],
      step.isMild = true := by
    simp [Step.isMild, Reaction.isMild]
  have hpush := (follow_calls_in_order listener s 10 hmild _ hsteps).push 5 none rfl
    ⟨fun _ => rfl, rfl, List.Pairwise.nil⟩ (.str "ann")
  have hvet (payload : Bytes) : Feed.vet t.feed.authority 5 [] (.str "ann")
      (.bytes .fixed payload) = .ok payload := rfl
  constructor
  · have hfails := hpush (.bytes .fixed [9])
    rw [Option.getD_none, hvet] at hfails
    obtain ⟨returned, failure, u, hrun, hheard⟩ := hfails
    have hfailure := hheard.failure_eq hlistener.accepts
    have hfirst : Feed.firstFailing? [9] t.feed.subscribers.zipIdx =
      some (1, .subscriber 1 .error) := rfl
    rw [hfirst] at hfailure
    obtain ⟨fault, rfl, hsame⟩ := Option.map_eq_some_iff.mp hfailure
    cases hsame
    exact ⟨u, hrun, hheard.calls_eq id hlistener, hheard.kept nofun⟩
  · have hreturns := hpush (.bytes .fixed [7])
    rw [Option.getD_none, hvet] at hreturns
    obtain ⟨returned, failure, u, hrun, hheard⟩ := hreturns
    have hfailure := hheard.failure_eq hlistener.accepts
    have hfirst : Feed.firstFailing? [7] t.feed.subscribers.zipIdx = none := rfl
    rw [hfirst] at hfailure
    obtain rfl := Option.map_eq_none_iff.mp hfailure
    have hall := hheard.subscribers_of_none
    have hcalls := hheard.calls_eq id hlistener
    rw [hheard.all_called rfl, hall] at hcalls
    exact ⟨u, hrun, hcalls, hall⟩

end Session
end LiveFeed
