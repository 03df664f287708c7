/-
Only differences of times matter.  For a feed with whole times whose subscribers only take note, what
is asked of it one after the other and rebuilding it from its snapshot come to a plain function of
its stamps; and if all times are moved by the same amount, the answers, the notes and the log that is
left differ only in their times, which are moved by that amount too.  What does depend on the times
themselves is whether a refusal that names them can be put in words.
-/
import LiveFeed.Proofs.Feed.Operation
import Mathlib.Data.List.Forall2

namespace LiveFeed

/-! Moved times -/

/-- A time moved by an amount. -/
def Value.shift (d : Int) : Value → Value
  | .int time => .int (time + d)
  | v => v

def Event.shift (d : Int) (event : Event) : Event :=
  { event with recordedAt := event.recordedAt.shift d }

def Note.shift (d : Int) : Note → Note
  | .told number event => .told number (event.shift d)
  | note => note

/-- A stale time and the time of the newest entry are moved; no other fault tells a time. -/
def Feed.Fault.shift (d : Int) : Fault → Fault
  | .log (.stale now latest) => .log (.stale (now.shift d) (latest.shift d))
  | fault => fault

def Answer.shift (d : Int) : Answer → Answer
  | .pushed event => .pushed (event.shift d)
  | .refused fault => .refused (fault.shift d)
  | answer => answer

/-- Whether a fault is a refusal because the newest entry is later than the time, put in words or
not. -/
def Feed.Fault.isLate : Fault → Bool
  | .log (.stale ..) | .log (.wordless _) => true
  | _ => false

/-- What becomes of a fault when the times are moved by an amount.  A refusal that names times names
two of the given ones, and is moved with them as far as it can be put in words, before and after. -/
inductive Feed.Fault.Moves [Limits] (d : Int) (isTime : Int → Prop) : Fault → Fault → Prop where
  | same {fault : Fault} (hother : fault.isLate = false) : Moves d isTime fault fault
  | late {now latest : Int} (hnow : isTime now) (hlatest : isTime latest) (hlt : now < latest) :
      Moves d isTime (.log (.ofStale (.int now) (.int latest)))
        (.log (.ofStale (.int (now + d)) (.int (latest + d))))

/-- What becomes of an answer when the times are moved by an amount. -/
inductive Answer.Moves [Limits] (d : Int) (isTime : Int → Prop) : Answer → Answer → Prop where
  | pushed (event : Event) : Moves d isTime (.pushed event) (.pushed (event.shift d))
  | cleaned (count : Nat) : Moves d isTime (.cleaned count) (.cleaned count)
  | shown (payloads : Option (List Bytes)) : Moves d isTime (.shown payloads) (.shown payloads)
  | refused {fault moved : Feed.Fault} (h : fault.Moves d isTime moved) :
      Moves d isTime (.refused fault) (.refused moved)

def Entry.shift (d : Int) (e : Entry) : Entry := { e with recordedAt := e.recordedAt.shift d }

def Log.shift (d : Int) (log : Log) : Log := { log with entries := log.entries.map (Entry.shift d) }

def Feed.shift (d : Int) (feed : Feed) : Feed := { feed with log := feed.log.map (Log.shift d) }

def Stamp.shift (d : Int) (s : Stamp) : Stamp := { s with time := s.time + d }

/-- What is done with a feed: it is asked for something, or it is rebuilt from its snapshot. -/
inductive Turn where
  | perform (operation : Operation)
  | rebuild

namespace Session

variable {ω : Type} [Limits]

/-- Takes a turn; there is no answer when the feed has been rebuilt. -/
def takeTurn (listener : Listener ω) (turn : Turn) (s : Session ω) : Option Answer × Session ω :=
  match turn with
  | .perform operation =>
      let (answer, t) := s.perform listener operation
      (some answer, t)
  | .rebuild =>
      match s.load s.feed.snapshot with
      | .ok _ t => (none, t)
      | .error fault t => (some (.refused fault), t)

/-- Takes turns one after the other, each at its time. -/
def takeTurns (listener : Listener ω) :
    List (Int × Turn) → Session ω → List (Option Answer) × Session ω
  | [], s => ([], s)
  | (now, turn) :: rest, s =>
      let (answer, t) := (s.atTime now).takeTurn listener turn
      let (answers, u) := takeTurns listener rest t
      (answer :: answers, u)

end Session

/-- The notes of so many subscribers about an answer. -/
def Answer.notes (count : Nat) : Answer → List Note
  | .pushed event => (List.range count).map fun number => .told number event
  | .cleaned _ | .shown _ | .refused _ => []

/-- A feed with whole times whose subscribers only take note, and the notes that they have left.  Its
log may have a lifetime of its own. -/
structure Roll where
  authority : Text
  lifetime : Int
  log : Option (Int × List Stamp)
  subscribers : Nat
  reentrantPushes : Nat
  notes : List Note

namespace Roll

def feed (r : Roll) : Feed where
  authority := r.authority
  lifetime := .int r.lifetime
  log := r.log.map fun (lifetime, ss) => Log.stamped lifetime ss
  subscribers := List.replicate r.subscribers .record
  reentrantPushes := r.reentrantPushes

/-- The stamps in the log, if there is one. -/
def held (r : Roll) : Option (List Stamp) := r.log.map Prod.snd

/-- The lifetime of the log, or the one that the next log would have. -/
def logLifetime (r : Roll) : Int := (r.log.map Prod.fst).getD r.lifetime

theorem held_of_log_eq {r : Roll} {lifetime : Int} {held : Option (List Stamp)}
    (h : r.log = held.map fun ss => (lifetime, ss)) : r.held = held := by
  rw [Roll.held, h, Option.map_map]
  exact Option.map_id'

variable [Limits]

/-- The answer at a turn, and what is left. -/
def take (r : Roll) (now : Int) : Turn → Option Answer × Roll
  | .perform operation =>
      let answer := Feed.reply r.authority r.logLifetime now r.held operation
      let later := Occurrence.after r.logLifetime ⟨now, operation, answer⟩ r.held
      (some answer, { r with
        log := later.map fun ss => (r.logLifetime, ss)
        notes := r.notes ++ answer.notes r.subscribers })
  | .rebuild => (none, { r with log := r.held.map fun ss => (r.lifetime, ss) })

/-- The answers at turns that are taken one after the other, and what is left in the end. -/
def course (r : Roll) : List (Int × Turn) → List (Option Answer) × Roll
  | [] => ([], r)
  | (now, turn) :: rest =>
      let (answer, later) := r.take now turn
      let (answers, last) := later.course rest
      (answer :: answers, last)

/-- The stamps and the notes moved by an amount. -/
def shift (d : Int) (r : Roll) : Roll :=
  { r with
    log := r.log.map fun (lifetime, ss) => (lifetime, ss.map (Stamp.shift d))
    notes := r.notes.map (Note.shift d) }

end Roll

namespace Stamp

variable {lifetime now : Int} {ss : List Stamp}

theorem isLive_shift (d lifetime now : Int) (s : Stamp) :
    (s.shift d).isLive lifetime (now + d) = s.isLive lifetime now := by
  have hage : now + d - (s.time + d) = now - s.time := by omega
  simp only [isLive, shift, hage]

theorem liveAt_shift (d lifetime now : Int) (ss : List Stamp) :
    liveAt lifetime (now + d) (ss.map (shift d)) = (liveAt lifetime now ss).map (shift d) := by
  rw [liveAt, List.filter_map]
  simp only [Function.comp_def, isLive_shift]
  rfl

theorem expiredAt_shift (d lifetime now : Int) (ss : List Stamp) :
    expiredAt lifetime (now + d) (ss.map (shift d)) =
      (expiredAt lifetime now ss).map (shift d) := by
  rw [expiredAt, List.filter_map]
  simp only [Function.comp_def, isLive_shift]
  rfl

theorem ahead?_shift (d now : Int) (ss : List Stamp) :
    ahead? (now + d) (ss.map (shift d)) = (ahead? now ss).map (· + d) := by
  rw [ahead?, ahead?, List.getLast?_map]
  cases ss.getLast? with
  | none => rfl
  | some last =>
      by_cases hlt : now < last.time <;> simp [shift, Option.filter, hlt]

theorem Ordered.shift (h : Ordered ss) (d : Int) : Ordered (ss.map (Stamp.shift d)) := by
  rw [Ordered, List.pairwise_map]
  refine List.Pairwise.imp ?_ h
  intro a b hle
  exact Int.add_le_add_right hle d

theorem getD_map_shift (d : Int) (held : Option (List Stamp)) :
    (held.map (List.map (shift d))).getD [] = (held.getD []).map (shift d) := by
  cases held <;> rfl

theorem map_payload_shift (d : Int) (ss : List Stamp) :
    (ss.map (shift d)).map payload = ss.map payload := by
  rw [List.map_map]
  rfl

end Stamp

theorem Log.shift_stamped (d lifetime : Int) (ss : List Stamp) :
    (stamped lifetime ss).shift d = stamped lifetime (ss.map (Stamp.shift d)) := by
  simp only [shift, stamped, List.map_map]
  rfl

/-! Answers with everything moved -/

section Moves

variable [Limits] {d : Int} {isTime : Int → Prop}

/-- Times that can be written before and after are moved in a fault. -/
theorem Feed.Fault.Moves.eq_shift {fault moved : Fault} (h : fault.Moves d isTime moved)
    (hwritten : ∀ time, isTime time → Digits.fit time = true ∧ Digits.fit (time + d) = true) :
    moved = fault.shift d := by
  cases h with
  | same hother =>
      unfold shift
      split
      · cases hother
      · rfl
  | @late now latest hnow hlatest hlt =>
      obtain ⟨hnowFit, hnowMoved⟩ := hwritten now hnow
      obtain ⟨hlatestFit, hlatestMoved⟩ := hwritten latest hlatest
      rw [Log.Fault.ofStale_of_fit hnowFit hlatestFit,
        Log.Fault.ofStale_of_fit hnowMoved hlatestMoved]
      rfl

theorem Answer.Moves.eq_shift {answer moved : Answer} (h : answer.Moves d isTime moved)
    (hwritten : ∀ time, isTime time → Digits.fit time = true ∧ Digits.fit (time + d) = true) :
    moved = answer.shift d := by
  cases h with
  | refused h => exact congrArg Answer.refused (h.eq_shift hwritten)
  | _ => rfl

theorem Answer.Moves.isAccepted_eq {answer moved : Answer} (h : answer.Moves d isTime moved) :
    moved.isAccepted = answer.isAccepted := by
  cases h <;> rfl

theorem Answer.Moves.notes_eq {answer moved : Answer} (h : answer.Moves d isTime moved)
    (count : Nat) : moved.notes count = (answer.notes count).map (Note.shift d) := by
  cases h with
  | pushed event =>
      simp only [notes, List.map_map]
      rfl
  | _ => rfl

theorem Answer.Moves.stored?_eq {answer moved : Answer} (h : answer.Moves d isTime moved)
    (now : Int) (operation : Operation) :
    Occurrence.stored? ⟨now + d, operation, moved⟩ =
      (Occurrence.stored? ⟨now, operation, answer⟩).map (Stamp.shift d) := by
  cases operation with
  | push origin data => cases data <;> cases h <;> rfl
  | clean => rfl
  | read => rfl

theorem Answer.Moves.after_eq {answer moved : Answer} (h : answer.Moves d isTime moved)
    (lifetime now : Int) (operation : Operation) (held : Option (List Stamp)) :
    Occurrence.after lifetime ⟨now + d, operation, moved⟩
        (held.map (List.map (Stamp.shift d))) =
      (Occurrence.after lifetime ⟨now, operation, answer⟩ held).map
        (List.map (Stamp.shift d)) := by
  simp only [Occurrence.after, h.isAccepted_eq]
  split
  · rw [Stamp.getD_map_shift, Stamp.liveAt_shift, h.stored?_eq, Option.map_some,
      List.map_append]
    cases Occurrence.stored? ⟨now, operation, answer⟩ <;> rfl
  · rfl

/-- A refusal for the time, with everything moved. -/
theorem Feed.Fault.Moves.of_ahead {now latest : Int} {ss : List Stamp} (hnow : isTime now)
    (hss : ∀ s ∈ ss, isTime s.time) (hahead : Stamp.ahead? now ss = some latest) :
    Feed.Fault.Moves d isTime (.log (.ofStale (.int now) (.int latest)))
      (.log (.ofStale (.int (now + d)) (.int (latest + d)))) := by
  obtain ⟨hlatest, hlt⟩ := Stamp.ahead?_eq_some_iff.mp hahead
  obtain ⟨last, hlast, rfl⟩ := Option.map_eq_some_iff.mp hlatest
  exact .late hnow (hss last (List.mem_of_getLast? hlast)) hlt

namespace Feed

/-- Who pushes and what is pushed is judged without the time. -/
theorem vet_shift {now : Int} {held : List Stamp} (hnow : isTime now)
    (hheld : ∀ s ∈ held, isTime s.time) (authority : Text) (origin data : Value) :
    match vet authority now held origin data with
    | .ok payload =>
        vet authority (now + d) (held.map (Stamp.shift d)) origin data = .ok payload
    | .error fault => ∃ moved, fault.Moves d isTime moved ∧
        vet authority (now + d) (held.map (Stamp.shift d)) origin data = .error moved := by
  unfold vet
  cases hauthorise : authorise authority origin with
  | error fault =>
      have hother : fault.isLate = false := by
        obtain ⟨-, rfl⟩ | ⟨-, -, rfl⟩ := authorise_eq_error_iff.mp hauthorise
        · rfl
        · unfold Fault.ofOrigin
          split <;> rfl
      exact ⟨fault, .same hother, rfl⟩
  | ok _ =>
      cases hoctets : Log.octets data with
      | error fault =>
          cases data with
          | bytes container octets => cases hoctets
          | _ =>
              cases hoctets
              exact ⟨_, .same rfl, rfl⟩
      | ok payload =>
          simp only [Stamp.ahead?_shift]
          cases hahead : Stamp.ahead? now held with
          | none => rfl
          | some latest => exact ⟨_, .of_ahead hnow hheld hahead, rfl⟩

theorem reply_shift {now : Int} {held : Option (List Stamp)} (hnow : isTime now)
    (hheld : ∀ s ∈ held.getD [], isTime s.time) (authority : Text) (lifetime : Int)
    (operation : Operation) :
    (reply authority lifetime now held operation).Moves d isTime
      (reply authority lifetime (now + d) (held.map (List.map (Stamp.shift d))) operation) := by
  cases operation with
  | push origin data =>
      have hvet := vet_shift (d := d) hnow hheld authority origin data
      simp only [reply, Stamp.getD_map_shift]
      cases hfirst : vet authority now (held.getD []) origin data with
      | ok payload =>
          rw [hfirst] at hvet
          rw [hvet]
          exact .pushed _
      | error fault =>
          rw [hfirst] at hvet
          obtain ⟨moved, hmoves, hsecond⟩ := hvet
          rw [hsecond]
          exact .refused hmoves
  | clean =>
      simp only [reply, Stamp.getD_map_shift, Stamp.ahead?_shift, Stamp.expiredAt_shift,
        List.length_map]
      cases hahead : Stamp.ahead? now (held.getD []) with
      | none => exact .cleaned _
      | some latest => exact .refused (.of_ahead hnow hheld hahead)
  | read =>
      cases held with
      | none => exact .shown none
      | some ss =>
          simp only [reply, Option.map_some, Stamp.liveAt_shift, Stamp.map_payload_shift]
          exact .shown _

end Feed

end Moves

/-- If all times can be written before and after, all answers are moved. -/
theorem Answer.eq_map_shift [Limits] {d : Int} {isTime : Int → Prop}
    {answers moved : List (Option Answer)}
    (h : List.Forall₂ (Option.Rel (Answer.Moves d isTime)) answers moved)
    (hwritten : ∀ time, isTime time → Digits.fit time = true ∧ Digits.fit (time + d) = true) :
    moved = answers.map (Option.map (Answer.shift d)) := by
  induction h with
  | nil => rfl
  | cons hanswer _ ih =>
      rw [ih, List.map_cons]
      cases hanswer with
      | none => rfl
      | some hmoves => rw [hmoves.eq_shift hwritten, Option.map_some]

/-- What is held after an occurrence was held before or is of its time. -/
theorem Occurrence.mem_after {lifetime : Int} {o : Occurrence} {held : Option (List Stamp)}
    {s : Stamp} (h : s ∈ (o.after lifetime held).getD []) : s ∈ held.getD [] ∨ s.time = o.now := by
  unfold after at h
  split at h
  · rcases List.mem_append.mp h with hlive | hstored
    · exact .inl (List.mem_of_mem_filter hlive)
    · rw [Option.mem_toList] at hstored
      right
      unfold stored? at hstored
      split at hstored <;> cases hstored
      rfl
  · exact .inl h

namespace Roll

theorem held_shift (d : Int) (r : Roll) :
    (r.shift d).held = r.held.map (List.map (Stamp.shift d)) := by
  simp only [held, shift, Option.map_map]
  rfl

theorem logLifetime_shift (d : Int) (r : Roll) : (r.shift d).logLifetime = r.logLifetime := by
  simp only [logLifetime, shift, Option.map_map]
  rfl

theorem feed_shift (d : Int) (r : Roll) : (r.shift d).feed = r.feed.shift d := by
  simp only [feed, shift, Feed.shift, Option.map_map, Function.comp_def, Log.shift_stamped]

variable [Limits]

/-- The stamps in the log are of certain times. -/
def Within (isTime : Int → Prop) (r : Roll) : Prop := ∀ s ∈ r.held.getD [], isTime s.time

theorem Within.take {isTime : Int → Prop} {r : Roll} (h : r.Within isTime) {now : Int}
    (hnow : isTime now) (turn : Turn) : (r.take now turn).2.Within isTime := by
  cases turn with
  | perform operation =>
      intro s hs
      rw [held_of_log_eq rfl] at hs
      rcases Occurrence.mem_after hs with hold | htime
      · exact h s hold
      · exact htime ▸ hnow
  | rebuild =>
      intro s hs
      rw [held_of_log_eq rfl] at hs
      exact h s hs

/-- One turn with everything moved. -/
theorem take_shift {isTime : Int → Prop} {r : Roll} (h : r.Within isTime) {now : Int}
    (hnow : isTime now) (d : Int) (turn : Turn) :
    Option.Rel (Answer.Moves d isTime) (r.take now turn).1 ((r.shift d).take (now + d) turn).1 ∧
      ((r.shift d).take (now + d) turn).2 = (r.take now turn).2.shift d := by
  cases turn with
  | perform operation =>
      have hreply := Feed.reply_shift (d := d) hnow h (r.shift d).authority r.logLifetime operation
      simp only [take, held_shift, logLifetime_shift]
      refine ⟨.some hreply, ?_⟩
      rw [hreply.after_eq, hreply.notes_eq]
      simp only [shift, Option.map_map, List.map_append]
      rfl
  | rebuild =>
      refine ⟨.none, ?_⟩
      simp only [take, held_shift]
      simp only [shift, Option.map_map]
      rfl

/-- All turns with everything moved. -/
theorem course_shift {isTime : Int → Prop} {r : Roll} (h : r.Within isTime) (d : Int)
    {turns : List (Int × Turn)} (hturns : ∀ turn ∈ turns, isTime turn.1) :
    List.Forall₂ (Option.Rel (Answer.Moves d isTime)) (r.course turns).1
        ((r.shift d).course (turns.map fun turn => (turn.1 + d, turn.2))).1 ∧
      ((r.shift d).course (turns.map fun turn => (turn.1 + d, turn.2))).2 =
        (r.course turns).2.shift d := by
  induction turns generalizing r with
  | nil => exact ⟨.nil, rfl⟩
  | cons turn rest ih =>
      obtain ⟨now, turn⟩ := turn
      obtain ⟨hnow, hrest⟩ := List.forall_mem_cons.mp hturns
      obtain ⟨hanswer, hlater⟩ := take_shift h hnow d turn
      obtain ⟨hanswers, hlast⟩ := ih (h.take hnow turn) hrest
      simp only [List.map_cons, course, hlater]
      exact ⟨.cons hanswer hanswers, hlast⟩

end Roll

/-! Sessions -/

namespace Delivery

variable {ω : Type} {listener : Listener ω} {notes : ω → List Note}

theorem notes_of_chorus (hlistener : listener.WritesDown notes) {event : Event}
    {number count : Nat} {world later : ω}
    (h : chorus listener event number count world = .ok () later) :
    notes later = notes world ++
      (List.range' number count).map fun number => Note.told number event := by
  induction count generalizing number world with
  | zero =>
      cases h
      exact (List.append_nil _).symm
  | succ count ih =>
      obtain ⟨noted, hnoted, hwritten⟩ := hlistener (.told number event) world
      simp only [chorus, hnoted] at h
      rw [ih h, hwritten, List.append_assoc, List.range'_succ]
      rfl

theorem notes_of_proclaim (hlistener : listener.WritesDown notes) {answer : Answer} {count : Nat}
    {world later : ω} (h : proclaim listener count answer.event? world = .ok () later) :
    notes later = notes world ++ answer.notes count := by
  cases answer with
  | pushed event =>
      rw [notes_of_chorus hlistener h, ← List.range_eq_range']
      rfl
  | _ =>
      cases h
      exact (List.append_nil _).symm

end Delivery

namespace Session

variable {ω : Type} {listener : Listener ω} {notes : ω → List Note} {s t : Session ω} {r : Roll}

/-- A session stands as a roll says. -/
structure Follows (notes : ω → List Note) (s : Session ω) (r : Roll) : Prop where
  feed_eq : s.feed = r.feed
  notes_eq : notes s.world = r.notes
  ordered : Stamp.Ordered (r.held.getD [])

theorem Follows.carries (h : s.Follows notes r) : s.feed.Carries r.logLifetime r.held := by
  rw [h.feed_eq]
  refine ⟨?_, ?_, h.ordered⟩
  · intro hnone
    rw [Roll.held, Option.map_eq_none_iff] at hnone
    rw [Roll.logLifetime, hnone]
    rfl
  · cases hlog : r.log <;> simp [Roll.feed, Roll.held, Roll.logLifetime, hlog]

theorem Follows.record (h : s.Follows notes r) : ∀ reaction ∈ s.feed.subscribers,
    reaction = .record := by
  rw [h.feed_eq]
  intro reaction hreaction
  exact List.eq_of_mem_replicate hreaction

/-- The times of the entries of a session and of the turns that are taken. -/
def HasTime (s : Session ω) (turns : List (Int × Turn)) (time : Int) : Prop :=
  (∃ log, s.feed.log = some log ∧ ∃ e ∈ log.entries, e.recordedAt = .int time) ∨
    ∃ turn ∈ turns, turn.1 = time

theorem Follows.within (h : s.Follows notes r) (turns : List (Int × Turn)) :
    r.Within (s.HasTime turns) := by
  intro stamp hstamp
  cases hheld : r.held with
  | none =>
      rw [hheld] at hstamp
      cases hstamp
  | some ss =>
      rw [hheld] at hstamp
      have hlog := h.carries.log_eq
      rw [hheld] at hlog
      exact .inl ⟨_, hlog, stamp.entry, List.mem_map_of_mem hstamp, rfl⟩

/-- Two sessions of which the second differs from the first in its times, which are later by an
amount: those in the log and those in the notes. -/
structure Displaced (d : Int) (notes : ω → List Note) (s t : Session ω) : Prop where
  feed_eq : t.feed = s.feed.shift d
  notes_eq : notes t.world = (notes s.world).map (Note.shift d)

theorem Follows.displaced (h : s.Follows notes r) {d : Int} (hd : t.Follows notes (r.shift d)) :
    Displaced d notes s t := by
  refine ⟨?_, ?_⟩
  · rw [hd.feed_eq, h.feed_eq, Roll.feed_shift]
  · rw [hd.notes_eq, h.notes_eq]
    rfl

theorem Follows.of_displaced (h : s.Follows notes r) {d : Int} (hd : Displaced d notes s t) :
    t.Follows notes (r.shift d) := by
  refine ⟨?_, ?_, ?_⟩
  · rw [hd.feed_eq, h.feed_eq, Roll.feed_shift]
  · rw [hd.notes_eq, h.notes_eq]
    rfl
  · rw [Roll.held_shift, Stamp.getD_map_shift]
    exact h.ordered.shift d

/-- A session with whole times whose subscribers only take note has a roll. -/
theorem exists_follows (notes : ω → List Note) {lifetime : Int}
    (hlifetime : s.feed.lifetime = .int lifetime)
    (hlog : ∀ log, s.feed.log = some log →
      ∃ stored ss, log = Log.stamped stored ss ∧ Stamp.Ordered ss)
    (hrecord : ∀ reaction ∈ s.feed.subscribers, reaction = .record) :
    ∃ r, s.Follows notes r := by
  have hsubscribers := List.eq_replicate_of_mem hrecord
  obtain ⟨feed, clock, world⟩ := s
  obtain ⟨authority, _, log?, subscribers, reentrantPushes⟩ := feed
  cases hlifetime
  cases log? with
  | none =>
      refine ⟨⟨authority, lifetime, none, subscribers.length, reentrantPushes, notes world⟩,
        ?_, rfl, List.Pairwise.nil⟩
      exact congrArg (Feed.mk authority _ none · reentrantPushes) hsubscribers
  | some log =>
      obtain ⟨stored, ss, rfl, hordered⟩ := hlog log rfl
      refine ⟨⟨authority, lifetime, some (stored, ss), subscribers.length, reentrantPushes,
        notes world⟩, ?_, rfl, hordered⟩
      exact congrArg (Feed.mk authority _ _ · reentrantPushes) hsubscribers

section

variable [Limits]

/-- A log with whole times is rebuilt under the lifetime of the feed. -/
theorem Follows.takeTurn_rebuild (h : s.Follows notes r) (listener : Listener ω) (now : Int) :
    (s.atTime now).takeTurn listener .rebuild =
      (none, { s.atTime now with feed := (r.take now .rebuild).2.feed }) := by
  have hset : (s.atTime now).feed = r.feed := h.feed_eq
  have hsnapshot : (s.atTime now).feed.snapshot = _ := h.carries.snapshot_eq
  have hload :=
    load_ofHeld (s := s.atTime now) (congrArg Feed.lifetime hset) r.logLifetime h.ordered
  simp only [Session.takeTurn, hsnapshot, hload]
  simp only [hset, Roll.feed, Roll.take, Option.map_map]
  rfl

/-- A turn of a session goes as the turn of its roll. -/
theorem Follows.takeTurn (hlistener : listener.WritesDown notes) (h : s.Follows notes r)
    (now : Int) (turn : Turn) :
    ∃ t, (s.atTime now).takeTurn listener turn = ((r.take now turn).1, t) ∧
      t.Follows notes (r.take now turn).2 := by
  cases turn with
  | perform operation =>
      obtain ⟨t, hperform, hfeed, hcarries, hproclaim⟩ :=
        perform_carried hlistener.accepts h.carries h.record now operation
      have hauthority : s.feed.authority = r.authority := congrArg Feed.authority h.feed_eq
      have hsubscribers : s.feed.subscribers.length = r.subscribers := by
        rw [h.feed_eq]
        exact List.length_replicate
      rw [hauthority] at hperform hfeed hcarries hproclaim
      rw [hsubscribers] at hproclaim
      have hnotes := Delivery.notes_of_proclaim hlistener hproclaim
      refine ⟨t, ?_, ?_, ?_, ?_⟩
      · simp only [Session.takeTurn, hperform, Roll.take]
      · rw [hfeed, h.feed_eq]
        simp only [Roll.feed, Roll.take, Option.map_map]
        rfl
      · rw [hnotes, h.notes_eq]
        rfl
      · rw [Roll.held_of_log_eq rfl]
        exact hcarries.ordered
  | rebuild =>
      refine ⟨_, h.takeTurn_rebuild listener now, rfl, h.notes_eq, ?_⟩
      rw [Roll.held_of_log_eq rfl]
      exact h.ordered

theorem Follows.takeTurns (hlistener : listener.WritesDown notes) (h : s.Follows notes r)
    (turns : List (Int × Turn)) :
    ∃ t, s.takeTurns listener turns = ((r.course turns).1, t) ∧
      t.Follows notes (r.course turns).2 := by
  induction turns generalizing s r with
  | nil => exact ⟨s, rfl, h⟩
  | cons turn rest ih =>
      obtain ⟨now, turn⟩ := turn
      obtain ⟨t, hturn, ht⟩ := h.takeTurn hlistener now turn
      obtain ⟨u, hrest, hu⟩ := ih ht
      refine ⟨u, ?_, hu⟩
      simp only [Session.takeTurns, hturn, hrest, Roll.course]

/-- Only differences of times matter.  A feed has a whole lifetime of either sign, a log with whole
times in order, if any, and subscribers that only take note.  Beside it there is another one whose
times are all later by an amount, which may be negative.  If the same is done with both, the times
at which it is done being later by that amount too, then the second answers as the first: what is
accepted and what is refused, the faults, the counts and the payloads are the same, and the times
are later by that amount.  Only where a refusal names a time of too many digits it cannot be put in
words, in the one or in the other; if all times can be written, before and after, the answers differ
in nothing but their times.  The events that subscribers have taken note of and the logs that are
left always differ only by that amount. -/
theorem takeTurns_displaced (listener : Listener ω) (notes : ω → List Note)
    (hlistener : listener.WritesDown notes) (s t : Session ω) (d lifetime : Int)
    (hlifetime : s.feed.lifetime = .int lifetime)
    (hlog : ∀ log, s.feed.log = some log →
      ∃ stored ss, log = Log.stamped stored ss ∧ Stamp.Ordered ss)
    (hrecord : ∀ reaction ∈ s.feed.subscribers, reaction = .record)
    (hdisplaced : Displaced d notes s t) (turns : List (Int × Turn)) :
    let first := s.takeTurns listener turns
    let second := t.takeTurns listener (turns.map fun turn => (turn.1 + d, turn.2))
    List.Forall₂ (Option.Rel (Answer.Moves d (s.HasTime turns))) first.1 second.1 ∧
      ((∀ time, s.HasTime turns time →
          Digits.fit time = true ∧ Digits.fit (time + d) = true) →
        second.1 = first.1.map (Option.map (Answer.shift d))) ∧
      Displaced d notes first.2 second.2 := by
  obtain ⟨r, hr⟩ := exists_follows notes hlifetime hlog hrecord
  obtain ⟨u, hfirst, hu⟩ := hr.takeTurns hlistener turns
  obtain ⟨v, hsecond, hv⟩ := (hr.of_displaced hdisplaced).takeTurns hlistener
    (turns.map fun turn => (turn.1 + d, turn.2))
  obtain ⟨hanswers, hlast⟩ := Roll.course_shift (hr.within turns) d
    fun turn hturn => .inr ⟨turn, hturn, rfl⟩
  rw [hlast] at hv
  simp only [hfirst, hsecond]
  exact ⟨hanswers, fun hwritten => Answer.eq_map_shift hanswers hwritten, hu.displaced hv⟩

end

open scoped Limits

/-- Three time units earlier the newest entry is one of a time below zero.  A push is late, one is
not, and the log is rebuilt under a shorter lifetime. -/
theorem takeTurns_displaced_of_earlier :
    let listener : Listener (List Note) := fun note notes => .ok (notes ++ [note])
    let feed : Feed :=
      { Feed.new (.ofString "ann") (.int 4) with
        log := some (Log.stamped 6 [⟨[1], 0⟩, ⟨[2], 2⟩])
        subscribers := [.record] }
    let t : Session (List Note) := ⟨feed.shift (-3), Clock.showing (.int 0), []⟩
    let push (octets : Bytes) : Turn :=
      .perform (.push (.str (.ofString "ann")) (.bytes .fixed octets))
    let turns : List (Int × Turn) := [(1, push [9]), (2, push [3]), (7, .perform .read),
      (7, .rebuild), (7, .perform .read), (7, .perform .clean)]
    let run := t.takeTurns listener (turns.map fun turn => (turn.1 + -3, turn.2))
    run.1 = [some (.refused (.log (.stale (.int (-2)) (.int (-1))))),
        some (.pushed ⟨[3], .int (-1)⟩), some (.shown (some [[2], [3]])), none,
        some (.shown (some [])), some (.cleaned 3)] ∧
      run.2.world = [.told 0 ⟨[3], .int (-1)⟩] := by
  intro listener feed t push turns run
  have hlistener : listener.WritesDown id := fun note notes => ⟨_, rfl, rfl⟩
  have hordered : Stamp.Ordered [⟨[1], 0⟩, ⟨[2], 2⟩] := by simp [Stamp.Ordered]
  let s : Session (List Note) := ⟨feed, Clock.showing (.int 0), []⟩
  obtain ⟨-, hanswers, hend⟩ := takeTurns_displaced listener id hlistener s t (-3) 4 rfl
    (by rintro _ ⟨⟩; exact ⟨_, _, rfl, hordered⟩) (by decide) ⟨rfl, rfl⟩ turns
  have hwritten (time : Int) (htime : s.HasTime turns time) :
      Digits.fit time = true ∧ Digits.fit (time + -3) = true := by
    have hsmall : time ∈ [0, 2, 1, 7] := by
      rcases htime with ⟨_, ⟨⟩, e, he, htime⟩ | ⟨turn, hturn, rfl⟩
      · simp only [Log.stamped, List.map_cons, List.map_nil, List.mem_cons, List.not_mem_nil,
          or_false] at he
        rcases he with rfl | rfl <;> cases htime <;> decide
      · simp only [turns, List.mem_cons, List.not_mem_nil, or_false] at hturn
        rcases hturn with rfl | rfl | rfl | rfl | rfl | rfl <;> decide
    have hall : ∀ time ∈ [(0 : Int), 2, 1, 7],
        Digits.fit time = true ∧ Digits.fit (time + -3) = true := by decide +kernel
    exact hall time hsmall
  replace hanswers := hanswers hwritten
  let r : Roll := ⟨.ofString "ann", 4, some (6, [⟨[1], 0⟩, ⟨[2], 2⟩]), 1, 0, []⟩
  have hr : s.Follows id r := ⟨rfl, rfl, hordered⟩
  obtain ⟨u, hcourse, hu⟩ := hr.takeTurns hlistener turns
  have hfirst : (r.course turns).1 = [some (.refused (.log (.ofStale (.int 1) (.int 2)))),
      some (.pushed ⟨[3], .int 2⟩), some (.shown (some [[2], [3]])), none,
      some (.shown (some [])), some (.cleaned 3)] := rfl
  rw [hcourse] at hanswers hend
  rw [hfirst, Log.Fault.ofStale_of_fit (by decide +kernel) (by decide +kernel)] at hanswers
  refine ⟨hanswers, hend.notes_eq.trans ?_⟩
  rw [hu.notes_eq]
  rfl

/-- A cleanup is refused as stale; with all times moved so far that they have too many digits, the
refusal is another one. -/
theorem displacement_fails_without_words :
    let listener : Listener (List Note) := fun note notes => .ok (notes ++ [note])
    let feed : Feed := ⟨"ann", .int 10, some (Log.stamped 10 [⟨[1], 2⟩]), [.record], 0⟩
    let d : Int := Nat.pow 10 4300
    let s : Session (List Note) := ⟨feed, Clock.showing (.int 0), []⟩
    let t : Session (List Note) := ⟨feed.shift d, Clock.showing (.int 0), []⟩
    let turns : List (Int × Turn) := [(1, .perform .clean)]
    let first := s.takeTurns listener turns
    let second := t.takeTurns listener (turns.map fun turn => (turn.1 + d, turn.2))
    Displaced d id s t ∧ first.1 = [some (.refused (.log (.stale (.int 1) (.int 2))))] ∧
      second.1 ≠ first.1.map (Option.map (Answer.shift d)) := by
  intro listener feed d s t turns first second
  have hlistener : listener.WritesDown id := fun note notes => ⟨_, rfl, rfl⟩
  let r : Roll := ⟨.ofString "ann", 10, some (10, [⟨[1], 2⟩]), 1, 0, []⟩
  have hr : s.Follows id r := ⟨rfl, rfl, List.pairwise_singleton _ _⟩
  have hdisplaced : Displaced d id s t := ⟨rfl, rfl⟩
  obtain ⟨u, hfirst, -⟩ := hr.takeTurns hlistener turns
  have hstale : first.1 = [some (.refused (.log (.stale (.int 1) (.int 2))))] := by
    have hcourse : first.1 = [some (.refused (.log (.ofStale (.int 1) (.int 2))))] :=
      congrArg Prod.fst hfirst
    rwa [Log.Fault.ofStale_of_fit (by decide +kernel) (by decide +kernel)] at hcourse
  have hmoved (d : Int) (t : Session (List Note)) (h : Displaced d id s t)
      (hunwritten : Digits.fit (1 + d) = false) :
      (t.takeTurns listener (turns.map fun turn => (turn.1 + d, turn.2))).1 =
        [some (.refused (.log (.wordless .tooLong)))] := by
    obtain ⟨v, hsecond, -⟩ := (hr.of_displaced h).takeTurns hlistener
      (turns.map fun turn => (turn.1 + d, turn.2))
    have hahead : Stamp.ahead? (1 + d) [⟨[1], 2 + d⟩] = some (2 + d) :=
      Stamp.ahead?_eq_some_iff.mpr ⟨rfl, by omega⟩
    have hanswer : Feed.reply "ann" 10 (1 + d) (some [⟨[1], 2 + d⟩]) .clean =
        .refused (.log (.wordless .tooLong)) := by
      simp only [Feed.reply, Option.getD_some, hahead, Log.Fault.ofStale_int, hunwritten,
        Bool.false_and, Bool.false_eq_true, ↓reduceIte]
    exact (congrArg Prod.fst hsecond).trans (congrArg (fun answer => [some answer]) hanswer)
  refine ⟨hdisplaced, hstale, ?_⟩
  have hsecond : second.1 = _ := hmoved d t hdisplaced (by decide +kernel)
  rw [hsecond, hstale]
  intro hsame
  cases hsame

end Session
end LiveFeed
