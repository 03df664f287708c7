/-
Whatever may be asked of a feed, and its answers.  For a feed with whole times and subscribers that
only take note, the answer and the log that is left are functions of the stamps and the time.
-/
import LiveFeed.Proofs.Feed.Advance
import LiveFeed.Proofs.Feed.Session

namespace LiveFeed

/-- What may be asked of a feed. -/
inductive Operation where
  | push (origin data : Value)
  | clean
  | read

/-- What a feed answers. -/
inductive Answer where
  | pushed (event : Event)
  | cleaned (count : Nat)
  | shown (payloads : Option (List Bytes))
  | refused (fault : Feed.Fault)

namespace Answer

/-- Whether a push or a cleanup was accepted. -/
def isAccepted : Answer → Bool
  | .pushed _ | .cleaned _ => true
  | .shown _ | .refused _ => false

/-- Whether an operation was refused because the newest entry is later than the time. -/
def isStale : Answer → Bool
  | .refused (.log (.stale ..)) => true
  | _ => false

/-- Whether an operation was broken off because the refusal by the log cannot be put in words. -/
def isWordless : Answer → Bool
  | .refused (.log (.wordless _)) => true
  | _ => false

/-- The event of an accepted push. -/
def event? : Answer → Option Event
  | .pushed event => some event
  | .cleaned _ | .shown _ | .refused _ => none

end Answer

/-- An operation, the time at which it was asked for, and the answer. -/
structure Occurrence where
  now : Int
  operation : Operation
  answer : Answer

namespace Occurrence

/-- The stamp that an accepted push stores. -/
def stored? (o : Occurrence) : Option Stamp :=
  match o.operation, o.answer with
  | .push _ (.bytes _ octets), .pushed _ => some ⟨octets, o.now⟩
  | _, _ => none

/-- The stamps of a feed after an occurrence: an accepted push or cleanup leaves the live ones and
what it stores, and brings the log into being. -/
def after (lifetime : Int) (o : Occurrence) (held : Option (List Stamp)) : Option (List Stamp) :=
  if o.answer.isAccepted then
    some (Stamp.liveAt lifetime o.now (held.getD []) ++ o.stored?.toList)
  else held

end Occurrence

namespace Session

variable {ω : Type}

/-- The same session with its clock set to a time. -/
def atTime (s : Session ω) (now : Int) : Session ω := { s with clock := Clock.showing (.int now) }

variable [Limits]

/-- Performs an operation. -/
def perform (listener : Listener ω) (operation : Operation) (s : Session ω) :
    Answer × Session ω :=
  match operation with
  | .push origin data =>
      match push listener origin data s with
      | .ok event t => (.pushed event, t)
      | .error fault t => (.refused fault, t)
  | .clean =>
      match clean s with
      | .ok count t => (.cleaned count, t)
      | .error fault t => (.refused fault, t)
  | .read =>
      match read s with
      | .ok payloads t => (.shown payloads, t)
      | .error fault t => (.refused fault, t)

/-- Performs operations one after the other, each at its time, and tells what occurred. -/
def history (listener : Listener ω) :
    List (Int × Operation) → Session ω → List Occurrence × Session ω
  | [], s => ([], s)
  | (now, operation) :: rest, s =>
      let (answer, t) := (s.atTime now).perform listener operation
      let (occurrences, u) := history listener rest t
      (⟨now, operation, answer⟩ :: occurrences, u)

end Session

/-- Subscribers whose notes are always taken. -/
def Listener.Accepts {ω : Type} (listener : Listener ω) : Prop :=
  ∀ note world, ∃ world', listener note world = .ok world'

theorem Listener.WritesDown.accepts {ω : Type} {listener : Listener ω} {notes : ω → List Note}
    (h : listener.WritesDown notes) : listener.Accepts := by
  intro note world
  obtain ⟨later, hlater, -⟩ := h note world
  exact ⟨later, hlater⟩

namespace Feed

variable [Limits]

/-- The answer of a feed with whole times to an operation, from its stamps and the time. -/
def reply (authority : Text) (lifetime now : Int) (held : Option (List Stamp)) :
    Operation → Answer
  | .push origin data =>
      match vet authority now (held.getD []) origin data with
      | .ok payload => .pushed ⟨payload, .int now⟩
      | .error fault => .refused fault
  | .clean =>
      match Stamp.ahead? now (held.getD []) with
      | some latest => .refused (.log (.ofStale (.int now) (.int latest)))
      | none => .cleaned (Stamp.expiredAt lifetime now (held.getD [])).length
  | .read => .shown (held.map fun ss => (Stamp.liveAt lifetime now ss).map Stamp.payload)

/-- What occurs when operations are performed one after the other, each at its time. -/
def chronicle (authority : Text) (lifetime : Int) :
    Option (List Stamp) → List (Int × Operation) → List Occurrence
  | _, [] => []
  | held, (now, operation) :: rest =>
      let o : Occurrence := ⟨now, operation, reply authority lifetime now held operation⟩
      o :: chronicle authority lifetime (o.after lifetime held) rest

end Feed

namespace Delivery

variable {ω : Type}

/-- So many subscribers take note of an event, if there is one. -/
def proclaim (listener : Listener ω) (count : Nat) : Option Event → EStateM Feed.Fault ω Unit
  | some event => chorus listener event 0 count
  | none => return

theorem chorus_accepts {listener : Listener ω} (hlistener : listener.Accepts) (event : Event)
    (number count : Nat) (world : ω) :
    ∃ world', chorus listener event number count world = .ok () world' := by
  induction count generalizing number world with
  | zero => exact ⟨world, rfl⟩
  | succ count ih =>
      obtain ⟨noted, hnoted⟩ := hlistener (.told number event) world
      obtain ⟨world', hrest⟩ := ih (number + 1) noted
      refine ⟨world', ?_⟩
      simp only [chorus, hnoted, hrest]

end Delivery

/-- A session of a feed with whole times whose subscribers only take note. -/
structure Session.Plain {ω : Type} (s : Session ω) (authority : Text) (lifetime : Int)
    (held : Option (List Stamp)) : Prop where
  authority_eq : s.feed.authority = authority
  holds : s.feed.Holds lifetime held
  record : ∀ r ∈ s.feed.subscribers, r = .record

namespace Session

variable {ω : Type} {listener : Listener ω} {s : Session ω} {authority : Text} {lifetime : Int}
  {held : Option (List Stamp)}

theorem shows_atTime (s : Session ω) (now : Int) : (s.atTime now).clock.Shows now := rfl

variable [Limits]

/-- An operation is answered from the stamps and the time.  So is what it leaves of the log, and
subscribers take note of a push that was accepted. -/
theorem perform_carried (hlistener : listener.Accepts) (hfeed : s.feed.Carries lifetime held)
    (hrecord : ∀ r ∈ s.feed.subscribers, r = .record) (now : Int) (operation : Operation) :
    let answer := Feed.reply s.feed.authority lifetime now held operation
    let later := Occurrence.after lifetime ⟨now, operation, answer⟩ held
    ∃ t, (s.atTime now).perform listener operation = (answer, t) ∧
      t.feed = { s.feed with log := later.map (Log.stamped lifetime) } ∧
      t.feed.Carries lifetime later ∧
      Delivery.proclaim listener s.feed.subscribers.length answer.event? s.world =
        .ok () t.world := by
  have hset : (s.atTime now).feed.Carries lifetime held := hfeed
  have hclock := shows_atTime s now
  have hkept : s.feed = { s.feed with log := held.map (Log.stamped lifetime) } := by
    rw [← hfeed.log_eq]
  cases operation with
  | push origin data =>
      cases hvet : Feed.vet s.feed.authority now (held.getD []) origin data with
      | error fault =>
          have hpush := push_refused hset hclock listener origin data hvet
          simp only [perform, hpush, Feed.reply, hvet]
          refine ⟨_, rfl, ?_⟩
          split <;> exact ⟨hkept, hfeed, rfl⟩
      | ok payload =>
          obtain ⟨-, hoctets, hahead⟩ := Feed.vet_eq_ok_iff.mp hvet
          obtain ⟨container, rfl⟩ := Log.octets_eq_ok_iff.mp hoctets
          have hpush := push_recorded hset hclock listener origin _ hvet hrecord
          obtain ⟨world, hchorus⟩ := Delivery.chorus_accepts hlistener ⟨payload, .int now⟩ 0
            (s.atTime now).feed.subscribers.length (s.atTime now).world
          rw [hchorus] at hpush
          simp only [perform, hpush, Feed.reply, hvet]
          exact ⟨_, rfl, rfl,
            hfeed.holding (hfeed.ordered.record hahead lifetime payload), hchorus⟩
  | clean =>
      have hclean := clean_eq hset hclock
      cases hahead : Stamp.ahead? now (held.getD []) with
      | some latest =>
          simp only [hahead] at hclean
          simp only [perform, hclean, Feed.reply, hahead]
          exact ⟨_, rfl, hkept, hfeed, rfl⟩
      | none =>
          simp only [hahead] at hclean
          simp only [perform, hclean, Feed.reply, hahead, Occurrence.after, Answer.isAccepted,
            Occurrence.stored?, ↓reduceIte, Option.toList_none, List.append_nil]
          exact ⟨_, rfl, rfl, hfeed.holding (hfeed.ordered.liveAt lifetime now), rfl⟩
  | read =>
      have hread := read_eq hset hclock
      cases held with
      | none =>
          simp only [perform, hread, Feed.reply]
          exact ⟨_, rfl, hkept, hfeed, rfl⟩
      | some ss =>
          simp only [perform, hread, Feed.reply]
          exact ⟨_, rfl, hkept, hfeed, rfl⟩

/-- An operation leaves a session of the same kind. -/
theorem perform_plain (hlistener : listener.Accepts) (hs : s.Plain authority lifetime held)
    (now : Int) (operation : Operation) :
    ∃ t, (s.atTime now).perform listener operation =
        (Feed.reply authority lifetime now held operation, t) ∧
      t.Plain authority lifetime (Occurrence.after lifetime
        ⟨now, operation, Feed.reply authority lifetime now held operation⟩ held) := by
  obtain ⟨t, hperform, hfeed, hcarries, -⟩ :=
    perform_carried hlistener hs.holds.carries hs.record now operation
  rw [hs.authority_eq] at hperform hfeed hcarries
  refine ⟨t, hperform, ?_, ⟨?_, hcarries.log_eq, hcarries.ordered⟩, ?_⟩
  · rw [hfeed]
    exact hs.authority_eq
  · rw [hfeed]
    exact hs.holds.lifetime_eq
  · rw [hfeed]
    exact hs.record

/-- A session goes through the chronicle of its stamps. -/
theorem history_plain (hlistener : listener.Accepts) (hs : s.Plain authority lifetime held)
    (steps : List (Int × Operation)) :
    ∃ t, s.history listener steps = (Feed.chronicle authority lifetime held steps, t) ∧
      t.Plain authority lifetime
        ((Feed.chronicle authority lifetime held steps).foldl
          (fun held o => o.after lifetime held) held) := by
  induction steps generalizing s held with
  | nil => exact ⟨s, rfl, hs⟩
  | cons step rest ih =>
      obtain ⟨now, operation⟩ := step
      obtain ⟨t, hperform, ht⟩ := perform_plain hlistener hs now operation
      obtain ⟨u, hrest, hu⟩ := ih ht
      refine ⟨u, ?_, hu⟩
      simp only [history, hperform, hrest, Feed.chronicle]

end Session
end LiveFeed
