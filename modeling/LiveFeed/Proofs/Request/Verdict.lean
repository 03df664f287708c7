/-
What a desk decides about a request.  The decision depends on the feed and on the time, not on the
surroundings; these only come in when an admitted push is told to the subscriber.
-/
import LiveFeed.Proofs.Request.Handling

namespace LiveFeed.Desk

variable {ω : Type}

/-- What a desk decides about a request. -/
inductive Verdict where
  | unknown (call : Value)
  /-- A push whose payload cannot be read. -/
  | unreadable (fault : Fault)
  /-- A push that is not signed by the authority; the clock is not read for it. -/
  | unauthorised (fault : Feed.Fault)
  /-- The log is ahead of the time. -/
  | stale (call : Call) (latest : Int)
  | cleaned
  | admitted (payload : Bytes)

variable [Limits]

/-- The verdict on a push whose payload can be read. -/
def vetted (authority : Text) (now : Int) (held : List Stamp) (origin : Value) (payload : Bytes) :
    Verdict :=
  match Feed.authorise authority origin with
  | .error fault => .unauthorised fault
  | .ok () =>
      match Stamp.ahead? now held with
      | some latest => .stale .push latest
      | none => .admitted payload

/-- The verdict on a request at a time, of a feed that holds stamps. -/
def verdict (authority : Text) (now : Int) (held : List Stamp) (request : List (Text × Value)) :
    Verdict :=
  match Call.ofName? (argument request "call") with
  | none => .unknown (argument request "call")
  | some .clean =>
      match Stamp.ahead? now held with
      | some latest => .stale .clean latest
      | none => .cleaned
  | some .push =>
      match payload request with
      | .error fault => .unreadable fault
      | .ok payload => vetted authority now held (argument request "origin") payload

/-- A desk that has read its clock once more and counted a request. -/
def noted (call : Call) (desk : Desk ω) : Desk ω :=
  ⟨desk.session.ticked, desk.metrics.countRequest call⟩

/-- The same desk with the given stamps in its log. -/
def holding (lifetime : Int) (ss : List Stamp) (desk : Desk ω) : Desk ω :=
  { desk with session.feed := desk.session.feed.holding lifetime ss }

namespace Verdict

/-- Carries a verdict out: one subscriber is told of an admitted push, nobody of anything else. -/
def carryOut (listener : Listener ω) (lifetime now : Int) (held : List Stamp) :
    Verdict → EStateM Fault (Desk ω) Outcome
  | .unknown call => throw (.ofCall call)
  | .unreadable fault => fun desk =>
      .error fault { desk with metrics := desk.metrics.countRequest .push }
  | .unauthorised fault => fun desk =>
      refuse .push fault desk.session (desk.metrics.countRequest .push)
  | .stale call latest => fun desk =>
      refuse call (.log (.ofStale (.int now) (.int latest))) (noted call desk).session
        (noted call desk).metrics
  | .cleaned => fun desk =>
      let count := (Stamp.expiredAt lifetime now held).length
      let desk := (noted .clean desk).holding lifetime (Stamp.liveAt lifetime now held)
      .ok (.cleaned count) { desk with metrics := desk.metrics.countEvicted count }
  | .admitted payload => fun desk =>
      let event : Event := ⟨payload, .int now⟩
      match listener (.told 0 event) desk.session.world with
      | .error fault => refuse .push fault (noted .push desk).session (noted .push desk).metrics
      | .ok world =>
          let desk := (noted .push desk).holding lifetime
            (Stamp.liveAt lifetime now held ++ [⟨payload, now⟩])
          .ok (.emitted event) { desk with session.world := world }

end Verdict

variable {lifetime now : Int} {held : Option (List Stamp)} {s : Session ω}

/-- A push whose payload can be read is decided and carried out. -/
theorem push_eq_carryOut (hfeed : s.feed.Carries lifetime held) (hclock : s.clock.Shows now)
    (hsubscribers : s.feed.subscribers = [.record]) (listener : Listener ω) (origin : Value)
    (payload : Bytes) (m : Metrics) :
    push listener origin payload ⟨s, m.countRequest .push⟩ =
      (vetted s.feed.authority now (held.getD []) origin payload).carryOut listener lifetime now
        (held.getD []) ⟨s, m⟩ := by
  have hoctets : Log.octets (.bytes .fixed payload) = .ok payload := rfl
  rw [vetted]
  cases hauthorise : Feed.authorise s.feed.authority origin with
  | error fault =>
      have hvet : Feed.vet s.feed.authority now (held.getD []) origin (.bytes .fixed payload) =
          .error fault := by
        simp only [Feed.vet, hauthorise]
      have hpush := Session.push_refused hfeed hclock listener _ _ hvet
      rw [hauthorise] at hpush
      rw [push_of_error hpush]
      rfl
  | ok _ =>
      cases hahead : Stamp.ahead? now (held.getD []) with
      | some latest =>
          have hvet : Feed.vet s.feed.authority now (held.getD []) origin
              (.bytes .fixed payload) = .error (.log (.ofStale (.int now) (.int latest))) := by
            simp only [Feed.vet, hauthorise, hoctets, hahead]
          have hpush := Session.push_refused hfeed hclock listener _ _ hvet
          rw [hauthorise] at hpush
          rw [push_of_error hpush]
          simp only [Verdict.carryOut, noted]
          rfl
      | none =>
          have hvet := Feed.vet_eq_ok_iff.mpr ⟨hauthorise, hoctets, hahead⟩
          have hrecord : ∀ r ∈ s.feed.subscribers, r = .record := by
            rw [hsubscribers]
            intro r hr
            exact List.mem_singleton.mp hr
          have hpush := Session.push_recorded hfeed hclock listener _ _ hvet hrecord
          rw [hsubscribers, List.length_singleton] at hpush
          simp only [Delivery.chorus] at hpush
          simp only [Verdict.carryOut, noted, holding]
          cases hnote : listener (.told 0 ⟨payload, .int now⟩) s.world with
          | error fault =>
              simp only [hnote] at hpush
              rw [push_of_error hpush]
              rfl
          | ok world =>
              simp only [hnote] at hpush
              rw [push_of_ok hpush]
              rfl

/-- A request to a desk with one subscriber, who only takes note, is decided and carried out. -/
theorem handle_eq_carryOut (hfeed : s.feed.Carries lifetime held) (hclock : s.clock.Shows now)
    (hsubscribers : s.feed.subscribers = [.record]) (listener : Listener ω)
    (request : List (Text × Value)) (m : Metrics) :
    handle listener request ⟨s, m⟩ =
      (verdict s.feed.authority now (held.getD []) request).carryOut listener lifetime now
        (held.getD []) ⟨s, m⟩ := by
  rw [handle_eq, verdict]
  cases Call.ofName? (argument request "call") with
  | none => rfl
  | some call =>
      cases call with
      | clean =>
          have hclean := Session.clean_eq hfeed hclock
          cases hahead : Stamp.ahead? now (held.getD []) with
          | some latest =>
              simp only [hahead] at hclean
              simp only [clean_of_error hclean, Verdict.carryOut, noted]
          | none =>
              simp only [hahead] at hclean
              simp only [clean_of_ok hclean, Verdict.carryOut, noted, holding]
              rfl
      | push =>
          cases payload request with
          | error fault => rfl
          | ok payload => exact push_eq_carryOut hfeed hclock hsubscribers listener _ payload _

end LiveFeed.Desk
