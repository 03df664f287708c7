/-
What a request does to a feed with whole times: a cleanup leaves the live stamps in its log, a push
also the new one, and whatever is refused or fails leaves the feed as it was.  The counters have no
say in this; what they count is the call, and then how it went.
-/
import LiveFeed.Proofs.Feed.Session
import LiveFeed.Request.Handling

namespace LiveFeed

/-- The reasons for which a feed itself may refuse a call. -/
def Call.reasons : Call → List Reason
  | .push => [.badOrigin, .wrongAuthority, .stale]
  | .clean => [.stale]

/-- The reasons for which a call may be refused: those of the feed itself and, while a push is told,
those of whoever is told. -/
inductive Call.Permits {ω : Type} (listener : Listener ω) (subscribers : List Reaction) :
    Call → Reason → Prop where
  | own {call : Call} {reason : Reason} (hmem : reason ∈ call.reasons) :
      Permits listener subscribers call reason
  | told {reason : Reason} (hraises : Raises listener subscribers reason) :
      Permits listener subscribers .push reason

/-- A log that is ahead of the time refuses as stale, if at all. -/
theorem Log.Fault.reason_of_ofStale [Limits] {now latest : Value} {reason : Reason}
    (h : Feed.Fault.reason? (.log (.ofStale now latest)) = some reason) : reason = .stale := by
  unfold ofStale at h
  split at h <;> cases h
  rfl

/-- The checks of a push refuse it for the reasons of the feed. -/
theorem Feed.mem_reasons_of_vet [Limits] {authority : Text} {now : Int} {held : List Stamp}
    {origin : Value} {payload : Bytes} {fault : Fault}
    (h : vet authority now held origin (.bytes .fixed payload) = .error fault) {reason : Reason}
    (hreason : fault.reason? = some reason) : reason ∈ Call.push.reasons := by
  rcases vet_eq_error h with rfl | rfl | ⟨latest, -, rfl⟩
  · cases hreason
    decide
  · unfold Fault.ofOrigin at hreason
    split at hreason <;> cases hreason
    decide
  · rw [Log.Fault.reason_of_ofStale hreason]
    decide

/-- A call is known by its name. -/
theorem Call.ofName?_eq_some_iff {name : Value} {call : Call} :
    Call.ofName? name = some call ↔ name.same (.str call.name) = true := by
  have hother (hpush : name.same (.str Call.push.name) = true) :
      name.same (.str Call.clean.name) = false := by
    rw [Value.same_str_iff.mp hpush]
    decide
  rw [Call.ofName?, List.find?_cons, List.find?_cons, List.find?_nil]
  cases hpush : name.same (.str Call.push.name) with
  | true => cases call <;> simp [hpush, hother hpush]
  | false => cases hclean : name.same (.str Call.clean.name) <;> cases call <;> simp [hpush, hclean]

namespace Desk

variable {ω : Type}

/-- The result of a request and what it leaves, without the counters. -/
def view : EStateM.Result Fault (Desk ω) Outcome → Except Fault Outcome × Session ω
  | .ok outcome desk => (.ok outcome, desk.session)
  | .error fault desk => (.error fault, desk.session)

variable [Limits]

theorem handle_eq (listener : Listener ω) (request : List (Text × Value)) (s : Session ω)
    (m : Metrics) :
    handle listener request ⟨s, m⟩ =
      match Call.ofName? (argument request "call") with
      | none => .error (.ofCall (argument request "call")) ⟨s, m⟩
      | some .clean => clean ⟨s, m.countRequest .clean⟩
      | some .push =>
          match payload request with
          | .error fault => .error fault ⟨s, m.countRequest .push⟩
          | .ok payload => push listener (argument request "origin") payload
              ⟨s, m.countRequest .push⟩ := by
  unfold handle
  cases Call.ofName? (argument request "call") with
  | none => rfl
  | some call =>
      cases call with
      | clean => rfl
      | push => cases payload request <;> rfl

theorem clean_of_ok {s t : Session ω} {count : Nat} (h : Session.clean s = .ok count t)
    (m : Metrics) : clean ⟨s, m⟩ = .ok (.cleaned count) ⟨t, m.countEvicted count⟩ := by
  simp only [clean, h]

theorem clean_of_error {s t : Session ω} {fault : Feed.Fault} (h : Session.clean s = .error fault t)
    (m : Metrics) : clean ⟨s, m⟩ = refuse .clean fault t m := by
  simp only [clean, h]

theorem push_of_ok {listener : Listener ω} {origin : Value} {payload : Bytes} {s t : Session ω}
    {event : Event} (h : Session.push listener origin (.bytes .fixed payload) s = .ok event t)
    (m : Metrics) : push listener origin payload ⟨s, m⟩ = .ok (.emitted event) ⟨t, m⟩ := by
  simp only [push, h]

theorem push_of_error {listener : Listener ω} {origin : Value} {payload : Bytes} {s t : Session ω}
    {fault : Feed.Fault}
    (h : Session.push listener origin (.bytes .fixed payload) s = .error fault t)
    (m : Metrics) : push listener origin payload ⟨s, m⟩ = refuse .push fault t m := by
  simp only [push, h]

theorem view_refuse (call : Call) (fault : Feed.Fault) (s : Session ω) (m m' : Metrics) :
    view (refuse call fault s m) = view (refuse call fault s m') := by
  unfold refuse
  split <;> rfl

/-- The counters have no say in what becomes of a request. -/
theorem view_handle (listener : Listener ω) (request : List (Text × Value)) (s : Session ω)
    (m m' : Metrics) :
    view (handle listener request ⟨s, m⟩) = view (handle listener request ⟨s, m'⟩) := by
  rw [handle_eq, handle_eq]
  split
  · rfl
  · cases hclean : Session.clean s with
    | ok count t =>
        rw [clean_of_ok hclean, clean_of_ok hclean]
        rfl
    | error fault t =>
        rw [clean_of_error hclean, clean_of_error hclean]
        exact view_refuse .clean fault t _ _
  · split
    · rfl
    · rename_i payload _
      cases hpush : Session.push listener (argument request "origin") (.bytes .fixed payload) s with
      | ok event t =>
          rw [push_of_ok hpush, push_of_ok hpush]
          rfl
      | error fault t =>
          rw [push_of_error hpush, push_of_error hpush]
          exact view_refuse .push fault t _ _

variable {lifetime now : Int} {held : Option (List Stamp)} {s : Session ω}

/-- What becomes of a request and of the counters.  It fails, with its call counted if this is
known; or it is refused for a reason for which its call may be; or it is accepted and leaves the
live stamps, a push that has passed the checks also the new one. -/
inductive Settles (listener : Listener ω) (lifetime now : Int) (held : List Stamp) (feed : Feed)
    (m : Metrics) (request : List (Text × Value)) :
    EStateM.Result Fault (Desk ω) Outcome → Prop where
  | failed {fault : Fault} {desk : Desk ω} (hfeed : desk.session.feed = feed)
      (hmetrics : desk.metrics =
        (Call.ofName? (argument request "call")).elim m m.countRequest) :
      Settles listener lifetime now held feed m request (.error fault desk)
  | rejected {call : Call} {reason : Reason} {detail : String} {desk : Desk ω}
      (hcall : Call.ofName? (argument request "call") = some call)
      (hpermits : call.Permits listener feed.subscribers reason)
      (hfeed : desk.session.feed = feed)
      (hmetrics : desk.metrics = (m.countRequest call).countRejection call reason) :
      Settles listener lifetime now held feed m request (.ok (.rejected call reason detail) desk)
  | cleaned {desk : Desk ω} (hcall : Call.ofName? (argument request "call") = some .clean)
      (hfeed : desk.session.feed = feed.holding lifetime (Stamp.liveAt lifetime now held))
      (hmetrics : desk.metrics =
        (m.countRequest .clean).countEvicted (Stamp.expiredAt lifetime now held).length) :
      Settles listener lifetime now held feed m request
        (.ok (.cleaned (Stamp.expiredAt lifetime now held).length) desk)
  | emitted {payload : Bytes} {desk : Desk ω}
      (hcall : Call.ofName? (argument request "call") = some .push)
      (hpayload : Desk.payload request = .ok payload)
      (hvet : Feed.vet feed.authority now held (argument request "origin")
        (.bytes .fixed payload) = .ok payload)
      (hfeed : desk.session.feed =
        feed.holding lifetime (Stamp.liveAt lifetime now held ++ [⟨payload, now⟩]))
      (hmetrics : desk.metrics = m.countRequest .push) :
      Settles listener lifetime now held feed m request (.ok (.emitted ⟨payload, .int now⟩) desk)

theorem settles_refuse {listener : Listener ω} {request : List (Text × Value)} {call : Call}
    (hcall : Call.ofName? (argument request "call") = some call) {fault : Feed.Fault} {feed : Feed}
    (hpermits : ∀ reason, fault.reason? = some reason →
      call.Permits listener feed.subscribers reason)
    {t : Session ω} (hfeed : t.feed = feed) (ss : List Stamp) (m : Metrics) :
    Settles listener lifetime now ss feed m request
      (refuse call fault t (m.countRequest call)) := by
  have hcounted : m.countRequest call =
      (Call.ofName? (argument request "call")).elim m m.countRequest := by
    rw [hcall, Option.elim_some]
  rw [refuse]
  cases hreason : fault.reason? with
  | none => exact .failed hfeed hcounted
  | some reason => exact .rejected hcall (hpermits reason hreason) hfeed rfl

theorem settles_clean (hfeed : s.feed.Carries lifetime held) (hclock : s.clock.Shows now)
    {request : List (Text × Value)}
    (hcall : Call.ofName? (argument request "call") = some .clean) (listener : Listener ω)
    (m : Metrics) :
    Settles listener lifetime now (held.getD []) s.feed m request
      (clean ⟨s, m.countRequest .clean⟩) := by
  have hclean := Session.clean_eq hfeed hclock
  cases hahead : Stamp.ahead? now (held.getD []) with
  | some latest =>
      simp only [hahead] at hclean
      rw [clean_of_error hclean]
      apply settles_refuse hcall
      · intro reason hreason
        rw [Log.Fault.reason_of_ofStale hreason]
        exact .own (by decide)
      · rfl
  | none =>
      simp only [hahead] at hclean
      rw [clean_of_ok hclean]
      exact .cleaned hcall rfl rfl

theorem settles_push (hfeed : s.feed.Carries lifetime held) (hclock : s.clock.Shows now)
    (hpassive : ∀ r ∈ s.feed.subscribers, r.isPassive = true) (listener : Listener ω)
    {request : List (Text × Value)} {payload : Bytes}
    (hcall : Call.ofName? (argument request "call") = some .push)
    (hpayload : Desk.payload request = .ok payload) (m : Metrics) :
    Settles listener lifetime now (held.getD []) s.feed m request
      (push listener (argument request "origin") payload ⟨s, m.countRequest .push⟩) := by
  cases hvet : Feed.vet s.feed.authority now (held.getD []) (argument request "origin")
      (.bytes .fixed payload) with
  | error fault =>
      have hpush := Session.push_refused hfeed hclock listener _ _ hvet
      rw [push_of_error hpush]
      apply settles_refuse hcall
      · exact fun reason hreason => .own (Feed.mem_reasons_of_vet hvet hreason)
      · split <;> rfl
  | ok admitted =>
      obtain rfl : payload = admitted := Except.ok.inj (Feed.vet_eq_ok_iff.mp hvet).2.1
      rcases Session.push_admitted hfeed hclock listener _ _ hvet hpassive with
        ⟨fault, t, hpush, hkept, hobjects⟩ | ⟨t, hpush, hleft⟩
      · rw [push_of_error hpush]
        apply settles_refuse hcall
        · exact fun reason hreason => .told (hobjects reason hreason)
        · exact hkept
      · rw [push_of_ok hpush]
        exact .emitted hcall hpayload hvet hleft rfl

/-- A request to a feed with passive subscribers is settled in one of the four ways. -/
theorem settles_handle (hfeed : s.feed.Carries lifetime held) (hclock : s.clock.Shows now)
    (hpassive : ∀ r ∈ s.feed.subscribers, r.isPassive = true) (listener : Listener ω)
    (request : List (Text × Value)) (m : Metrics) :
    Settles listener lifetime now (held.getD []) s.feed m request
      (handle listener request ⟨s, m⟩) := by
  rw [handle_eq]
  cases hcall : Call.ofName? (argument request "call") with
  | none => exact .failed rfl (by rw [hcall, Option.elim_none])
  | some call =>
      cases call with
      | clean => exact settles_clean hfeed hclock hcall listener m
      | push =>
          cases hpayload : payload request with
          | error fault => exact .failed rfl (by rw [hcall, Option.elim_some])
          | ok payload => exact settles_push hfeed hclock hpassive listener hcall hpayload m

namespace Settles

variable {listener : Listener ω} {feed : Feed} {m : Metrics} {request : List (Text × Value)}
  {ss : List Stamp} {desk : Desk ω}

theorem feed_of_failed {fault : Fault}
    (h : Settles listener lifetime now ss feed m request (.error fault desk)) :
    desk.session.feed = feed := by
  cases h with
  | failed hfeed _ => exact hfeed

/-- A refusal leaves the feed as it was. -/
theorem feed_of_rejected {outcome : Outcome}
    (h : Settles listener lifetime now ss feed m request (.ok outcome desk))
    (hrejected : outcome.isAccepted = false) : desk.session.feed = feed := by
  cases h with
  | rejected _ _ hfeed _ => exact hfeed
  | cleaned _ _ _ => contradiction
  | emitted _ _ _ _ _ => contradiction

theorem feed_of_accepted {outcome : Outcome}
    (h : Settles listener lifetime now ss feed m request (.ok outcome desk))
    (haccepted : outcome.isAccepted = true) (hordered : Stamp.Ordered ss) :
    ∃ kept, Stamp.Ordered kept ∧ desk.session.feed = feed.holding lifetime kept := by
  cases h with
  | rejected _ _ _ _ => contradiction
  | cleaned _ hfeed _ => exact ⟨_, hordered.liveAt lifetime now, hfeed⟩
  | emitted _ _ hvet hfeed _ =>
      exact ⟨_, hordered.record (Feed.vet_eq_ok_iff.mp hvet).2.2 lifetime _, hfeed⟩

end Settles

end Desk
end LiveFeed
