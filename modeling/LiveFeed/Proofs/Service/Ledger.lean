/-
The ledger of a service: what becomes of everything that arrives if every message is either a
request that is applied to the feed or malformed and skipped.  A ledger sends nothing and prints
nothing; it is what a service is measured by.
-/
import LiveFeed.Proofs.Log.Snapshot
import LiveFeed.Proofs.Request.Message
import LiveFeed.Proofs.Request.Verdict
import LiveFeed.Service.Run

namespace LiveFeed

namespace Arrival

/-- If the arrival sets the clock, then to a whole number. -/
def IsWhole (arrival : Arrival) : Prop :=
  ∀ seconds, arrival.seconds = some seconds → ∃ now, Clock.millis seconds = .ok now

/-- Whether a message has come. -/
def bringsMessage (arrival : Arrival) : Bool :=
  match arrival.poll with
  | .message _ => true
  | _ => false

end Arrival

namespace Desk

variable {ω ω' : Type}

/-- The same desk in other surroundings. -/
def movedTo (world : ω') (desk : Desk ω) : Desk ω' :=
  ⟨⟨desk.session.feed, desk.session.clock, world⟩, desk.metrics⟩

/-- A desk whose times are whole numbers that can be written, with one subscriber, who only takes
note. -/
structure Stands (lifetime : Int) (held : Option (List Stamp)) (desk : Desk ω) : Prop where
  holds : desk.session.feed.Holds lifetime held
  subscribers_eq : desk.session.feed.subscribers = [.record]
  whole : desk.session.clock.IsWhole
  timesFit : ∀ s ∈ held.getD [], Digits.fit s.time = true

end Desk

namespace Service

/-- What becomes of an arrival. -/
inductive Fate where
  /-- Nothing has come. -/
  | idle
  /-- The source of the messages has reported an error. -/
  | failed
  /-- A message was skipped. -/
  | malformed
  | handled (outcome : Outcome)

namespace Fate

/-- The message that is to be sent: one for an accepted push and one for a refusal. -/
def message? : Fate → Option Value
  | .handled (.emitted event) => some (Message.emitted event)
  | .handled (.rejected call reason detail) => some (Message.rejected call reason detail)
  | _ => none

def isEmitted : Fate → Bool
  | .handled (.emitted _) => true
  | _ => false

def isRejected : Fate → Bool
  | .handled (.rejected ..) => true
  | _ => false

def isCleaned : Fate → Bool
  | .handled (.cleaned _) => true
  | _ => false

def isMalformed : Fate → Bool
  | .malformed => true
  | _ => false

/-- Whether a message has come. -/
def isOfMessage : Fate → Bool
  | .idle | .failed => false
  | .malformed | .handled _ => true

/-- A message is accounted for in exactly one of four ways. -/
theorem countP_isOfMessage (fates : List Fate) :
    fates.countP isOfMessage =
      fates.countP isEmitted + fates.countP isRejected + fates.countP isCleaned +
        fates.countP isMalformed := by
  induction fates with
  | nil => rfl
  | cons fate rest ih =>
      simp only [List.countP_cons, ih]
      cases fate with
      | idle => rfl
      | failed => rfl
      | malformed =>
          simp [isOfMessage, isEmitted, isRejected, isCleaned, isMalformed, Nat.add_assoc]
      | handled outcome =>
          cases outcome <;> simp [isOfMessage, isEmitted, isRejected, isCleaned, isMalformed] <;>
            omega

end Fate

variable [Limits]

/-- Takes note of events that can be written, in no surroundings. -/
def scribe : Listener Unit := fun note _ =>
  match note with
  | .told _ event => ((Json.text? (Message.emitted event)).mapError .unwritable).map fun _ => ()
  | _ => .ok ()

/-- The feed of a service with its counters, and the files around it. -/
structure Ledger where
  desk : Desk Unit
  tree : FileTree

namespace Ledger

/-- Sets the clock, if an arrival says so. -/
def setClock (seconds : Option Value) (l : Ledger) : Ledger :=
  match seconds with
  | none => l
  | some seconds =>
      { l with desk.session.clock := l.desk.session.clock.setSeconds seconds }

/-- Counts an error. -/
def countError (l : Ledger) : Ledger := { l with desk.metrics := l.desk.metrics.countError }

/-- Saves the log to the state file, if there is one. -/
def save (stateFile : Option Text) (l : Ledger) : Ledger :=
  match stateFile with
  | none => l
  | some path =>
      let saved := ending (StateFile.persist path l.desk.session.feed (l.desk.metrics, l.tree))
      { l with desk.metrics := saved.1, tree := saved.2 }

/-- Counts what readers see now. -/
def gauge (l : Ledger) : Ledger :=
  match l.desk.session.read with
  | .ok live session =>
      { l with desk := ⟨session, { l.desk.metrics with live := (live.getD []).length }⟩ }
  | .error _ session => { l with desk := { l.desk with session } }

/-- Saves the log after an accepted request. -/
def saveAfter (stateFile : Option Text) (outcome : Outcome) (l : Ledger) : Ledger :=
  if outcome.isAccepted then l.save stateFile else l

/-- Applies a request.  One that has no outcome is malformed. -/
def apply (stateFile : Option Text) (request : List (Text × Value)) (l : Ledger) : Fate × Ledger :=
  match Desk.handle scribe request l.desk with
  | .error _ desk => (.malformed, { l with desk }.countError)
  | .ok outcome desk => (.handled outcome, ({ l with desk }.saveAfter stateFile outcome).gauge)

/-- Deals with a message.  One without an object in it is malformed. -/
def receive (stateFile : Option Text) (value : Option Bytes) (l : Ledger) : Fate × Ledger :=
  match value.bind fun octets => (Wire.decode octets).toOption with
  | none => (.malformed, l.countError)
  | some request => l.apply stateFile request

/-- Deals with an arrival. -/
def deal (stateFile : Option Text) (arrival : Arrival) (l : Ledger) : Fate × Ledger :=
  let l := l.setClock arrival.seconds
  match arrival.poll with
  | .nothing => (.idle, l)
  | .failure code _ =>
      if code = Poll.endOfPartition then (.idle, l) else (.failed, l.countError)
  | .message value => l.receive stateFile value

/-- Deals with arrivals one after the other. -/
def run (stateFile : Option Text) : List Arrival → Ledger → List Fate × Ledger
  | [], l => ([], l)
  | arrival :: rest, l =>
      let (fate, l) := l.deal stateFile arrival
      let (fates, l) := l.run stateFile rest
      (fate :: fates, l)

end Ledger
end Service

namespace Desk

variable {ω ω' : Type} {lifetime now : Int} {held : Option (List Stamp)} {desk : Desk ω}

theorem Stands.of_eq (h : desk.Stands lifetime held) {other : Desk ω'}
    (hfeed : other.session.feed = desk.session.feed)
    (hface : other.session.clock.face = desk.session.clock.face) : other.Stands lifetime held := by
  refine ⟨?_, ?_, ?_, h.timesFit⟩
  · rw [hfeed]
    exact h.holds
  · rw [hfeed]
    exact h.subscribers_eq
  · intro n
    rw [hface]
    exact h.whole n

theorem Stands.holding (h : desk.Stands lifetime held) {ss : List Stamp} (hss : Stamp.Ordered ss)
    (hfit : ∀ s ∈ ss, Digits.fit s.time = true) :
    (desk.holding lifetime ss).Stands lifetime (some ss) :=
  ⟨h.holds.holding hss, h.subscribers_eq, h.whole, hfit⟩

theorem Stands.noted (h : desk.Stands lifetime held) (call : Call) :
    (noted call desk).Stands lifetime held :=
  h.of_eq rfl rfl

variable [Limits]

theorem ahead?_of_verdict {authority : Text} {held : List Stamp} {request : List (Text × Value)}
    {payload : Bytes} (h : verdict authority now held request = .admitted payload) :
    Stamp.ahead? now held = none := by
  unfold verdict vetted at h
  repeat' split at h
  all_goals first | assumption | cases h

theorem session_refuse (call : Call) (fault : Feed.Fault) (s : Session ω) (m : Metrics) :
    (ending (refuse call fault s m)).session = s := by
  unfold refuse
  split <;> rfl

theorem Stands.refuse (h : desk.Stands lifetime held) (call : Call) (fault : Feed.Fault)
    (m : Metrics) : (ending (Desk.refuse call fault desk.session m)).Stands lifetime held :=
  h.of_eq (congrArg Session.feed (session_refuse call fault desk.session m))
    (congrArg (fun s => s.clock.face) (session_refuse call fault desk.session m))

/-- A request leaves whole times that can be written, because an event that cannot be written is
not stored. -/
theorem Stands.handle {desk : Desk Unit} (h : desk.Stands lifetime held)
    (request : List (Text × Value)) :
    ∃ held', (ending (Desk.handle Service.scribe request desk)).Stands lifetime held' := by
  obtain ⟨now, hclock⟩ := h.whole desk.session.clock.reads
  have hhandle := handle_eq_carryOut h.holds.carries hclock h.subscribers_eq Service.scribe request
    desk.metrics
  rw [hhandle]
  cases hverdict : verdict desk.session.feed.authority now (held.getD []) request with
  | unknown call => exact ⟨held, h⟩
  | unreadable fault => exact ⟨held, h.of_eq rfl rfl⟩
  | unauthorised fault => exact ⟨held, h.refuse .push fault _⟩
  | stale call latest =>
      simp only [Verdict.carryOut]
      exact ⟨held, (h.noted call).refuse call _ _⟩
  | cleaned =>
      refine ⟨_, ((h.noted .clean).holding (h.holds.ordered.liveAt lifetime now) ?_).of_eq rfl rfl⟩
      intro s hs
      exact h.timesFit s (List.mem_filter.mp hs).1
  | admitted payload =>
      by_cases hfit : Digits.fit now = true
      · obtain ⟨text, htext⟩ := Message.exists_text?_emitted payload hfit
        have hnote : Service.scribe (.told 0 ⟨payload, .int now⟩) desk.session.world = .ok () := by
          simp only [Service.scribe, htext]
          rfl
        have hordered := h.holds.ordered.record (ahead?_of_verdict hverdict) lifetime payload
        simp only [Verdict.carryOut, hnote]
        refine ⟨_, ((h.noted .push).holding hordered ?_).of_eq rfl rfl⟩
        intro s hs
        rcases List.mem_append.mp hs with hlive | hnew
        · exact h.timesFit s (List.mem_filter.mp hlive).1
        · rw [List.mem_singleton.mp hnew]
          exact hfit
      · have htext := Message.text?_emitted_of_not_fit payload hfit
        have hnote : Service.scribe (.told 0 ⟨payload, .int now⟩) desk.session.world =
            .error (.unwritable .tooLong) := by
          simp only [Service.scribe, htext]
          rfl
        simp only [Verdict.carryOut, hnote]
        exact ⟨held, (h.noted .push).refuse .push _ _⟩

end Desk

namespace Service.Ledger

variable {lifetime : Int} {held : Option (List Stamp)} {l : Ledger}

theorem feed_setClock (seconds : Option Value) (l : Ledger) :
    (l.setClock seconds).desk.session.feed = l.desk.session.feed := by
  cases seconds <;> rfl

theorem tree_setClock (seconds : Option Value) (l : Ledger) :
    (l.setClock seconds).tree = l.tree := by
  cases seconds <;> rfl

theorem stands_setClock (h : l.desk.Stands lifetime held) {arrival : Arrival}
    (harrival : arrival.IsWhole) : (l.setClock arrival.seconds).desk.Stands lifetime held := by
  cases hseconds : arrival.seconds with
  | none => exact h
  | some seconds =>
      obtain ⟨now, hnow⟩ := harrival seconds hseconds
      refine ⟨h.holds, h.subscribers_eq, fun _ => ⟨now, ?_⟩, h.timesFit⟩
      simp only [setClock, Clock.setSeconds, hnow]
      rfl

theorem stands_gauge (h : l.desk.Stands lifetime held) : l.gauge.desk.Stands lifetime held := by
  obtain ⟨now, hclock⟩ := h.whole l.desk.session.clock.reads
  have hread := Session.read_eq h.holds.carries hclock
  unfold gauge
  cases held with
  | none =>
      simp only [hread]
      exact h.of_eq rfl rfl
  | some ss =>
      simp only [hread]
      exact h.of_eq rfl rfl

variable [Limits]

theorem stands_save (h : l.desk.Stands lifetime held) (stateFile : Option Text) :
    (l.save stateFile).desk.Stands lifetime held := by
  cases stateFile with
  | none => exact h
  | some path => exact h.of_eq rfl rfl

theorem stands_saveAfter (h : l.desk.Stands lifetime held) (stateFile : Option Text)
    (outcome : Outcome) : (l.saveAfter stateFile outcome).desk.Stands lifetime held := by
  unfold saveAfter
  split
  · exact stands_save h stateFile
  · exact h

theorem stands_apply (h : l.desk.Stands lifetime held) (stateFile : Option Text)
    (request : List (Text × Value)) :
    ∃ held', (l.apply stateFile request).2.desk.Stands lifetime held' := by
  obtain ⟨held', hhandle⟩ := h.handle request
  unfold apply
  cases hresult : Desk.handle scribe request l.desk with
  | error fault desk =>
      rw [hresult] at hhandle
      exact ⟨held', hhandle.of_eq rfl rfl⟩
  | ok outcome desk =>
      rw [hresult] at hhandle
      exact ⟨held', stands_gauge (stands_saveAfter hhandle stateFile outcome)⟩

theorem stands_receive (h : l.desk.Stands lifetime held) (stateFile : Option Text)
    (value : Option Bytes) : ∃ held', (l.receive stateFile value).2.desk.Stands lifetime held' := by
  unfold receive
  split
  · exact ⟨held, h.of_eq rfl rfl⟩
  · exact stands_apply h stateFile _

/-- Whatever arrives, times stay whole numbers that can be written. -/
theorem stands_deal (h : l.desk.Stands lifetime held) (stateFile : Option Text)
    {arrival : Arrival} (harrival : arrival.IsWhole) :
    ∃ held', (l.deal stateFile arrival).2.desk.Stands lifetime held' := by
  have hset := stands_setClock h harrival
  unfold deal
  split
  · exact ⟨held, hset⟩
  · split
    · exact ⟨held, hset⟩
    · exact ⟨held, hset.of_eq rfl rfl⟩
  · exact stands_receive hset stateFile _

theorem receive_of_error {octets : Bytes} {fault : Wire.Fault}
    (h : Wire.decode octets = .error fault) (stateFile : Option Text) (l : Ledger) :
    l.receive stateFile (some octets) = (.malformed, l.countError) := by
  rw [receive, Option.bind_some, h]
  rfl

theorem receive_of_ok {octets : Bytes} {request : List (Text × Value)}
    (h : Wire.decode octets = .ok request) (stateFile : Option Text) (l : Ledger) :
    l.receive stateFile (some octets) = l.apply stateFile request := by
  rw [receive, Option.bind_some, h]
  rfl

theorem isOfMessage_receive (stateFile : Option Text) (value : Option Bytes) (l : Ledger) :
    (l.receive stateFile value).1.isOfMessage = true := by
  unfold receive apply
  split
  · rfl
  · split <;> rfl

theorem isOfMessage_deal (stateFile : Option Text) (arrival : Arrival) (l : Ledger) :
    (l.deal stateFile arrival).1.isOfMessage = arrival.bringsMessage := by
  unfold deal Arrival.bringsMessage
  cases arrival.poll with
  | nothing => rfl
  | failure code text =>
      by_cases hcode : code = Poll.endOfPartition
      · simp only [hcode, ↓reduceIte]
        rfl
      · simp only [hcode, ↓reduceIte]
        rfl
  | message value => exact isOfMessage_receive stateFile value _

/-- One more arrival after others. -/
theorem run_concat (stateFile : Option Text) (served : List Arrival) (arrival : Arrival)
    (l : Ledger) :
    l.run stateFile (served ++ [arrival]) =
      ((l.run stateFile served).1 ++ [((l.run stateFile served).2.deal stateFile arrival).1],
        ((l.run stateFile served).2.deal stateFile arrival).2) := by
  induction served generalizing l with
  | nil => rfl
  | cons first rest ih =>
      simp only [List.cons_append, run, ih]

/-- There are as many messages as there are fates of messages. -/
theorem countP_bringsMessage (stateFile : Option Text) (served : List Arrival) (l : Ledger) :
    served.countP Arrival.bringsMessage =
      (l.run stateFile served).1.countP Fate.isOfMessage := by
  induction served generalizing l with
  | nil => rfl
  | cons arrival rest ih =>
      simp only [run, List.countP_cons, isOfMessage_deal]
      rw [ih]

end Service.Ledger
end LiveFeed
