/-
The books that a desk keeps.  However a course of inquiries goes, every request whose call is known
is counted once when it arrives and turns up once more as accepted, refused or failed; and every
entry that was there or has been added is either stored, or was dropped by a cleanup, which is
counted, or by a push, which is not.
-/
import LiveFeed.Proofs.Request.Refusal
import Mathlib.Algebra.BigOperators.Group.Finset.Basic
import Mathlib.Algebra.BigOperators.Group.Finset.Piecewise

namespace LiveFeed

namespace Metrics

variable (m : Metrics) (call : Call)

/-- How many requests for a call were refused, over all reasons that there have been. -/
def refused : Nat := ∑ reason ∈ m.reasons.toFinset, m.rejections call reason

@[simp] theorem requests_countRequest (c : Call) :
    (m.countRequest call).requests c = m.requests c + if call = c then 1 else 0 := by
  simp only [countRequest, eq_comm]

@[simp] theorem refusals_countRequest : (m.countRequest call).refusals = m.refusals := rfl

@[simp] theorem evicted_countRequest : (m.countRequest call).evicted = m.evicted := rfl

variable (reason : Reason)

@[simp] theorem requests_countRejection :
    (m.countRejection call reason).requests = m.requests := rfl

@[simp] theorem refusals_countRejection :
    (m.countRejection call reason).refusals = (call, reason) :: m.refusals := rfl

@[simp] theorem evicted_countRejection : (m.countRejection call reason).evicted = m.evicted := rfl

variable (count : Nat)

@[simp] theorem requests_countEvicted : (m.countEvicted count).requests = m.requests := rfl

@[simp] theorem refusals_countEvicted : (m.countEvicted count).refusals = m.refusals := rfl

@[simp] theorem evicted_countEvicted : (m.countEvicted count).evicted = m.evicted + count := rfl

end Metrics

/-- The entries of a feed that are no longer live at a time. -/
def Feed.expiredAt (now : Int) (feed : Feed) : List Entry :=
  match feed.log with
  | none => []
  | some log => log.entries.filter fun e =>
      match e.isLive log.lifetime (.int now) with
      | .ok live => !live
      | .error _ => false

@[simp] theorem Feed.entries_holding (feed : Feed) (lifetime : Int) (ss : List Stamp) :
    (feed.holding lifetime ss).entries = ss.map Stamp.entry := rfl

theorem Feed.Carries.length_expiredAt {feed : Feed} {lifetime : Int} {held : Option (List Stamp)}
    (h : feed.Carries lifetime held) (now : Int) :
    (feed.expiredAt now).length = (Stamp.expiredAt lifetime now (held.getD [])).length := by
  rw [Feed.expiredAt, h.log_eq]
  cases held with
  | none => rfl
  | some ss =>
      simp only [Option.map_some, Option.getD_some, Log.stamped_entries, Log.stamped_lifetime,
        List.filter_map, List.length_map, Stamp.expiredAt]
      congr 2
      funext s
      simp only [Function.comp_apply, Stamp.isLive_entry]

namespace Minute

/-- Whether an inquiry is a request for a call. -/
def asks (call : Call) (minute : Minute) : Bool :=
  match minute.inquiry with
  | .request fields => (Desk.argument fields "call").same (.str call.name)
  | .read => false

/-- Whether a request for a call was accepted. -/
def accepts (call : Call) (minute : Minute) : Bool :=
  minute.asks call &&
    match minute.reply with
    | .dealt outcome => outcome.isAccepted
    | _ => false

/-- The call that was refused, and the reason. -/
def refusal? (minute : Minute) : Option (Call × Reason) :=
  match minute.reply with
  | .dealt (.rejected call reason _) => some (call, reason)
  | _ => none

/-- Whether a request for a call failed. -/
def fails (call : Call) (minute : Minute) : Bool :=
  minute.asks call &&
    match minute.reply with
    | .failed _ => true
    | _ => false

/-- How many entries the accepted pushes among some minutes have dropped from a feed: those that had
expired when the push came. -/
def droppedByPushes : Feed → List Minute → Nat
  | _, [] => 0
  | before, minute :: rest =>
      (if minute.accepts .push then (before.expiredAt minute.now).length else 0) +
        droppedByPushes minute.feed rest

theorem refusals_cons (minute : Minute) (rest : List Minute) :
    (minute :: rest).filterMap refusal? = minute.refusal?.toList ++ rest.filterMap refusal? := by
  rw [List.filterMap_cons]
  cases minute.refusal? <;> rfl

theorem refusals_singleton (minute : Minute) :
    [minute].filterMap refusal? = minute.refusal?.toList := by
  rw [refusals_cons, List.filterMap_nil, List.append_nil]

variable {ω : Type} {listener : Listener ω}

/-- What some minutes have changed in the counters, and between the feed before and the last one. -/
structure Booked (listener : Listener ω) (before : Feed) (m : Metrics) (minutes : List Minute)
    (last : Feed) (m' : Metrics) : Prop where
  subscribers : last.subscribers = before.subscribers
  requests : ∀ call, m'.requests call = m.requests call + minutes.countP (asks call)
  refusals : m'.refusals = (minutes.filterMap refusal?).reverse ++ m.refusals
  settled : ∀ call, minutes.countP (asks call) =
    minutes.countP (accepts call) + (minutes.filterMap refusal?).countP (·.1 = call) +
      minutes.countP (fails call)
  permitted : ∀ refusal ∈ minutes.filterMap refusal?,
    refusal.1.Permits listener before.subscribers refusal.2
  evicted_le : m.evicted ≤ m'.evicted
  conserved : before.entries.length + m.evicted + minutes.countP (accepts .push) =
    last.entries.length + m'.evicted + droppedByPushes before minutes

namespace Booked

variable {before last : Feed} {m m₁ m₂ : Metrics} {minute : Minute} {rest : List Minute}

theorem nil (listener : Listener ω) (feed : Feed) (m : Metrics) :
    Booked listener feed m [] feed m := by
  constructor <;> simp [droppedByPushes]

/-- Whoever reads changes nothing. -/
theorem read (listener : Listener ω) (now : Int) (payloads : Option (List Bytes)) (feed : Feed)
    (m : Metrics) : Booked listener feed m [⟨now, .read, .shown payloads, feed⟩] feed m := by
  constructor <;> simp [asks, accepts, refusals_cons, refusal?, fails, droppedByPushes]

/-- One minute and those that follow. -/
theorem cons (hfirst : Booked listener before m [minute] minute.feed m₁)
    (hrest : Booked listener minute.feed m₁ rest last m₂) :
    Booked listener before m (minute :: rest) last m₂ := by
  have hrefusals : (minute :: rest).filterMap refusal? =
      [minute].filterMap refusal? ++ rest.filterMap refusal? := by
    rw [refusals_cons, refusals_singleton]
  constructor
  · exact hrest.subscribers.trans hfirst.subscribers
  · intro call
    have hone := hfirst.requests call
    rw [List.countP_singleton] at hone
    rw [hrest.requests, hone, List.countP_cons]
    omega
  · rw [hrest.refusals, hfirst.refusals, hrefusals, List.reverse_append, List.append_assoc]
  · intro call
    have hone := hfirst.settled call
    have hmore := hrest.settled call
    simp only [List.countP_singleton] at hone
    rw [hrefusals, List.countP_append, List.countP_cons, List.countP_cons, List.countP_cons]
    omega
  · rw [hrefusals]
    intro refusal hrefusal
    rcases List.mem_append.mp hrefusal with hone | hmore
    · exact hfirst.permitted refusal hone
    · rw [← hfirst.subscribers]
      exact hrest.permitted refusal hmore
  · exact Nat.le_trans hfirst.evicted_le hrest.evicted_le
  · have hone := hfirst.conserved
    have hmore := hrest.conserved
    rw [List.countP_singleton, droppedByPushes, droppedByPushes] at hone
    rw [List.countP_cons, droppedByPushes]
    omega

end Booked
end Minute

namespace Desk

variable {ω : Type} {listener : Listener ω} {lifetime now : Int} {held : Option (List Stamp)}

/-- What becomes of a request, as a reply. -/
def replyOf : EStateM.Result Fault (Desk ω) Outcome → Reply
  | .ok outcome _ => .dealt outcome
  | .error fault _ => .failed fault

namespace Settles

variable {feed : Feed} {m : Metrics} {fields : List (Text × Value)} {ss : List Stamp}
  {result : EStateM.Result Fault (Desk ω) Outcome}

/-- The minute in which a request had a result. -/
def minute (now : Int) (fields : List (Text × Value))
    (result : EStateM.Result Fault (Desk ω) Outcome) : Minute :=
  ⟨now, .request fields, replyOf result, (ending result).session.feed⟩

theorem asks_minute_iff {call : Call} : (minute now fields result).asks call = true ↔
    Call.ofName? (argument fields "call") = some call :=
  Call.ofName?_eq_some_iff.symm

variable [Limits]

/-- A refusal is counted under its call and its reason. -/
theorem refusals_eq (h : Settles listener lifetime now ss feed m fields result) :
    (ending result).metrics.refusals =
      (minute now fields result).refusal?.toList ++ m.refusals := by
  cases h with
  | failed _ hmetrics =>
      cases hcall : Call.ofName? (argument fields "call") <;>
        simp [minute, Minute.refusal?, replyOf, ending, hcall, hmetrics]
  | rejected _ _ _ hmetrics => simp [minute, Minute.refusal?, replyOf, ending, hmetrics]
  | cleaned _ _ hmetrics => simp [minute, Minute.refusal?, replyOf, ending, hmetrics]
  | emitted _ _ _ _ hmetrics => simp [minute, Minute.refusal?, replyOf, ending, hmetrics]

/-- A call that is refused has been asked for, and may be refused for that reason. -/
theorem permits_of_refusal? (h : Settles listener lifetime now ss feed m fields result)
    {refusal : Call × Reason} (hrefusal : (minute now fields result).refusal? = some refusal) :
    (minute now fields result).asks refusal.1 = true ∧
      refusal.1.Permits listener feed.subscribers refusal.2 := by
  cases h with
  | rejected hcall hpermits _ _ =>
      cases hrefusal
      exact ⟨asks_minute_iff.mpr hcall, hpermits⟩
  | failed _ _ => contradiction
  | cleaned _ _ _ => contradiction
  | emitted _ _ _ _ _ => contradiction

/-- A request for a call is accepted, refused, or fails. -/
theorem settled (h : Settles listener lifetime now ss feed m fields result) (call : Call) :
    (if (minute now fields result).asks call then 1 else 0) =
      (if (minute now fields result).accepts call then 1 else 0) +
        (minute now fields result).refusal?.toList.countP (·.1 = call) +
        (if (minute now fields result).fails call then 1 else 0) := by
  by_cases hasks : (minute now fields result).asks call = true
  · rw [if_pos hasks]
    cases h with
    | failed _ _ =>
        simpa [Minute.accepts, Minute.fails, minute, replyOf, Minute.refusal?] using hasks
    | @rejected asked reason _ _ hcall _ _ _ =>
        obtain rfl : asked = call := Option.some.inj (hcall.symm.trans (asks_minute_iff.mp hasks))
        simp [Minute.accepts, Minute.fails, minute, replyOf, Outcome.isAccepted, Minute.refusal?]
    | cleaned _ _ _ =>
        simpa [Minute.accepts, Minute.fails, minute, replyOf, Outcome.isAccepted, Minute.refusal?]
          using hasks
    | emitted _ _ _ _ _ =>
        simpa [Minute.accepts, Minute.fails, minute, replyOf, Outcome.isAccepted, Minute.refusal?]
          using hasks
  · have hother : (minute now fields result).refusal?.toList.countP (·.1 = call) = 0 := by
      rw [List.countP_eq_zero]
      intro refusal hrefusal
      simp only [decide_eq_true_eq]
      rintro rfl
      exact hasks (h.permits_of_refusal? (Option.mem_toList.mp hrefusal)).1
    simp [Minute.accepts, Minute.fails, hasks, hother]

/-- Whatever becomes of a request, the subscribers stay. -/
theorem subscribers_eq (h : Settles listener lifetime now ss feed m fields result) :
    (ending result).session.feed.subscribers = feed.subscribers := by
  cases h with
  | failed hfeed _ => rw [ending, hfeed]
  | rejected _ _ hfeed _ => rw [ending, hfeed]
  | cleaned _ hfeed _ =>
      rw [ending, hfeed]
      rfl
  | emitted _ _ _ hfeed _ =>
      rw [ending, hfeed]
      rfl

theorem evicted_le (h : Settles listener lifetime now ss feed m fields result) :
    m.evicted ≤ (ending result).metrics.evicted := by
  cases h with
  | failed _ hmetrics =>
      rw [ending, hmetrics]
      cases Call.ofName? (argument fields "call") <;> exact Nat.le_refl _
  | rejected _ _ _ hmetrics =>
      rw [ending, hmetrics]
      exact Nat.le_refl _
  | cleaned _ _ hmetrics =>
      rw [ending, hmetrics]
      exact Nat.le_add_right _ _
  | emitted _ _ _ _ hmetrics =>
      rw [ending, hmetrics]
      exact Nat.le_refl _

/-- A cleanup counts what it drops, and nothing else is counted as dropped. -/
theorem conserved (hfeed : feed.Carries lifetime held)
    (h : Settles listener lifetime now (held.getD []) feed m fields result) :
    feed.entries.length + m.evicted +
        (if (minute now fields result).accepts .push then 1 else 0) =
      (ending result).session.feed.entries.length + (ending result).metrics.evicted +
        if (minute now fields result).accepts .push then (feed.expiredAt now).length else 0 := by
  have hsplit : feed.entries.length = (Stamp.expiredAt lifetime now (held.getD [])).length +
      (Stamp.liveAt lifetime now (held.getD [])).length := by
    rw [← List.length_append, Stamp.expiredAt_append_liveAt hfeed.ordered, hfeed.entries_eq,
      List.length_map]
  cases h with
  | failed hleft hmetrics =>
      cases hcall : Call.ofName? (argument fields "call") <;>
        simp [minute, replyOf, Minute.accepts, ending, hleft, hcall, hmetrics]
  | rejected _ _ hleft hmetrics =>
      simp [minute, replyOf, Minute.accepts, Outcome.isAccepted, ending, hleft, hmetrics]
  | @cleaned desk hcall hleft hmetrics =>
      have hpush (count : Nat) :
          (minute now fields (.ok (.cleaned count) desk)).accepts .push = false := by
        rw [Minute.accepts, Bool.and_eq_false_iff, ← Bool.not_eq_true, asks_minute_iff, hcall]
        exact .inl nofun
      rw [hpush, if_neg Bool.false_ne_true, if_neg Bool.false_ne_true, ending, hleft, hmetrics,
        hsplit, Feed.entries_holding, List.length_map, Metrics.evicted_countEvicted,
        Metrics.evicted_countRequest]
      omega
  | @emitted payload desk hcall _ _ hleft hmetrics =>
      have hpush (event : Event) :
          (minute now fields (.ok (.emitted event) desk)).accepts .push = true := by
        rw [Minute.accepts, asks_minute_iff.mpr hcall]
        rfl
      rw [if_pos (hpush _), if_pos (hpush _), ending, hleft, hmetrics, hsplit,
        hfeed.length_expiredAt, Feed.entries_holding, List.length_map, List.length_append,
        List.length_singleton, Metrics.evicted_countRequest]
      omega

end Settles

section

variable [Limits] {desk later : Desk ω}

end

open scoped Limits

end Desk
end LiveFeed
