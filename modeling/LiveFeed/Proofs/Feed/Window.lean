/-
What an accepted change of a feed leaves: a log all of whose entries are younger than the lifetime,
and all of them are shown at the time of the change.  Subscribers may do meanwhile what they like.
As long as the clock shows whole numbers, every log in use keeps its order, and a push stores into
one of them.
-/
import LiveFeed.Proofs.Feed.Reentrance
import LiveFeed.Proofs.Log.Snapshot

namespace LiveFeed

namespace Log

variable {lifetime now : Int} {ss : List Stamp}

/-- Every entry is younger than the lifetime at a time, and then all of them are shown. -/
structure Fills (log : Log) (lifetime now : Int) : Prop where
  young : ∀ e ∈ log.entries, ∃ time, e.recordedAt = .int time ∧ now - time < lifetime
  live_eq : log.live (.int now) = .ok (log.entries.map Entry.payload)

theorem fills_stamped (hordered : Stamp.Ordered ss)
    (hlive : ∀ s ∈ ss, s.isLive lifetime now = true) :
    (stamped lifetime ss).Fills lifetime now where
  young := by
    intro e he
    obtain ⟨s, hs, rfl⟩ := List.mem_map.mp he
    exact ⟨s.time, rfl, by simpa [Stamp.isLive] using hlive s hs⟩
  live_eq := by
    rw [live_stamped hordered, Stamp.liveAt, List.filter_eq_self.mpr hlive, stamped_entries,
      List.map_map]
    rfl

/-- A cleanup leaves the live stamps. -/
theorem fills_liveAt (hordered : Stamp.Ordered ss) (lifetime now : Int) :
    (stamped lifetime (Stamp.liveAt lifetime now ss)).Fills lifetime now :=
  fills_stamped (hordered.liveAt lifetime now) fun _ hs => (List.mem_filter.mp hs).2

/-- A push leaves the live stamps and the new one, which is live because the lifetime is
positive. -/
theorem fills_recorded (hlifetime : 0 < lifetime) (hordered : Stamp.Ordered ss)
    (hahead : Stamp.ahead? now ss = none) (payload : Bytes) :
    (stamped lifetime (Stamp.liveAt lifetime now ss ++ [⟨payload, now⟩])).Fills lifetime now := by
  apply fills_stamped (hordered.record hahead lifetime payload)
  intro s hs
  rcases List.mem_append.mp hs with hlive | hnew
  · exact (List.mem_filter.mp hlive).2
  · rw [List.mem_singleton.mp hnew]
    simpa [Stamp.isLive] using hlifetime

end Log

namespace Delivery

variable {ω α : Type} {lifetime now : Int}

/-- A feed whose clock shows whole numbers and whose logs in use are in order. -/
structure Sound (lifetime : Int) (d : Delivery ω) : Prop where
  lifetime_eq : d.lifetime = .int lifetime
  whole : d.clock.IsWhole
  logs : ∀ log ∈ d.logs, ∃ ss, log = Log.stamped lifetime ss ∧ Stamp.Ordered ss
  shown : ∀ position, d.shown = some position → position < d.logs.length

/-- If the first state is sound, then so is the second one, and no log has gone out of use. -/
def StaysSound (lifetime : Int) (d e : Delivery ω) : Prop :=
  d.Sound lifetime → e.Sound lifetime ∧ d.logs.length ≤ e.logs.length

instance : IsPreorder (Delivery ω) (StaysSound lifetime) where
  refl _ h := ⟨h, Nat.le_refl _⟩
  trans _ _ _ hde hef h :=
    ⟨(hef (hde h).1).1, Nat.le_trans (hde h).2 (hef (hde h).1).2⟩

variable {d e : Delivery ω}

theorem StaysSound.of_undisturbed (h : Undisturbed d e) : StaysSound lifetime d e := by
  obtain ⟨reads, world, rfl⟩ := h
  exact fun hsound =>
    ⟨⟨hsound.lifetime_eq, hsound.whole, hsound.logs, hsound.shown⟩, Nat.le_refl _⟩

theorem Sound.ticked (h : d.Sound lifetime) : d.ticked.Sound lifetime :=
  ⟨h.lifetime_eq, h.whole, h.logs, h.shown⟩

/-- The log that is held for a change is in use. -/
theorem Sound.held (h : d.Sound lifetime) :
    d.holding.2.Sound lifetime ∧ d.logs.length ≤ d.holding.2.logs.length ∧
      d.holding.1 < d.holding.2.logs.length := by
  cases hshown : d.shown with
  | some position =>
      rw [holding_of_shown hshown]
      exact ⟨h, Nat.le_refl _, h.shown position hshown⟩
  | none =>
      rw [holding_of_hidden hshown h.lifetime_eq]
      refine ⟨⟨h.lifetime_eq, h.whole, ?_, ?_⟩, by simp, by simp⟩
      · intro log hlog
        rcases List.mem_append.mp hlog with hold | hnew
        · exact h.logs log hold
        · exact ⟨[], List.mem_singleton.mp hnew, List.Pairwise.nil⟩
      · intro position hposition
        rw [hshown] at hposition
        contradiction

theorem Sound.showing (h : d.Sound lifetime) {position : Nat}
    (hposition : position < d.logs.length) {ss : List Stamp} (hss : Stamp.Ordered ss) :
    (d.showing position (Log.stamped lifetime ss)).Sound lifetime := by
  refine ⟨h.lifetime_eq, h.whole, ?_, ?_⟩
  · intro log hlog
    rcases List.mem_or_eq_of_mem_set hlog with hold | hnew
    · exact h.logs log hold
    · exact ⟨ss, hnew, hss⟩
  · intro other hother
    obtain rfl : position = other := Option.some_inj.mp hother
    rw [Delivery.showing, List.length_set]
    exact hposition

theorem mem_of_log? {log : Log} (h : d.log? = some log) : log ∈ d.logs := by
  obtain ⟨position, -, hlog⟩ := Option.bind_eq_some_iff.mp h
  exact List.mem_of_getElem? hlog

/-- A log in use, or a new one, is the log of some stamps in order. -/
theorem Sound.getD_empty (h : d.Sound lifetime) {found? : Option Log}
    (hfound : ∀ log, found? = some log → log ∈ d.logs) :
    ∃ ss, found?.getD (Log.empty d.lifetime) = Log.stamped lifetime ss ∧ Stamp.Ordered ss := by
  cases found? with
  | some log => exact h.logs log (hfound log rfl)
  | none => exact ⟨[], congrArg Log.empty h.lifetime_eq, List.Pairwise.nil⟩

variable {listener : Listener ω} {nested : Bytes → Act ω Unit}

theorem sound_consult : Leads (StaysSound lifetime) (consult : Act ω Value) :=
  undisturbed_consult.imp fun _ _ => StaysSound.of_undisturbed

theorem sound_leave (listener : Listener ω) (note : Note) :
    Leads (StaysSound lifetime) (leave listener note) :=
  (undisturbed_leave listener note).imp fun _ _ => StaysSound.of_undisturbed

/-- How a push at a time may end in a sound feed: it fails, or the feed shows the live stamps of
some that were in order, and behind them the new one. -/
inductive PushEnds (lifetime now : Int) (data : Value) (d : Delivery ω) :
    EStateM.Result Feed.Fault (Delivery ω) Event → Prop where
  | failed {fault : Feed.Fault} {e : Delivery ω} (hstays : StaysSound lifetime d e) :
      PushEnds lifetime now data d (.error fault e)
  | recorded {payload : Bytes} {ss : List Stamp} {e : Delivery ω}
      (hstays : StaysSound lifetime d e) (hoctets : Log.octets data = .ok payload)
      (hordered : Stamp.Ordered ss) (hahead : Stamp.ahead? now ss = none)
      (hlog : e.log? = some
        (Log.stamped lifetime (Stamp.liveAt lifetime now ss ++ [⟨payload, now⟩]))) :
      PushEnds lifetime now data d (.ok ⟨payload, .int now⟩ e)

theorem PushEnds.staysSound {data : Value}
    {result : EStateM.Result Feed.Fault (Delivery ω) Event}
    (h : PushEnds lifetime now data d result) : StaysSound lifetime d (ending result) := by
  cases h with
  | failed hstays => exact hstays
  | recorded hstays => exact hstays

variable [Limits]

/-- A cleanup is refused, or it leaves the live stamps of some that were in order. -/
theorem Sound.clean_eq (h : d.Sound lifetime) (hclock : d.clock.Shows now) :
    (∃ fault, clean d = .error fault d.ticked) ∨
      ∃ ss count, Stamp.Ordered ss ∧ clean d = .ok count
        (d.ticked.holding.2.showing d.ticked.holding.1
          (Log.stamped lifetime (Stamp.liveAt lifetime now ss))) := by
  obtain ⟨ss, hlog, hordered⟩ := h.ticked.getD_empty (fun _ => mem_of_log?)
  have hrun : clean d =
      (lift .log ((Log.stamped lifetime ss).evict (.int now)) >>= fun evicted => do
        store (← hold) evicted.2
        return evicted.1) d.ticked := by
    unfold clean
    rw [bind_of_ok (consult_of_shows hclock), bind_get, bind_get, hlog]
  rw [Log.evict_stamped hordered] at hrun
  cases hahead : Stamp.ahead? now ss with
  | some latest =>
      simp only [hahead] at hrun
      rw [bind_of_error (lift_error .log _ _)] at hrun
      exact .inl ⟨_, hrun⟩
  | none =>
      simp only [hahead] at hrun
      rw [bind_of_ok (lift_ok .log _ _), bind_of_ok (hold_eq _)] at hrun
      exact .inr ⟨ss, _, hordered, hrun⟩

/-- A push is settled behind the live stamps of some that were in order, or it is too late for
that. -/
theorem Sound.settle_cases (h : d.Sound lifetime) (now : Int) (position : Nat) (payload : Bytes) :
    (∃ fault, settle position ⟨payload, .int now⟩ d = .error fault d) ∨
      ∃ ss, Stamp.Ordered ss ∧ Stamp.ahead? now ss = none ∧
        settle position ⟨payload, .int now⟩ d = .ok ⟨payload, .int now⟩ (d.showing position
          (Log.stamped lifetime (Stamp.liveAt lifetime now ss ++ [⟨payload, now⟩]))) := by
  obtain ⟨ss, hlog, hordered⟩ := h.getD_empty (fun _ => List.mem_of_getElem? (i := position))
  have hrun : settle position ⟨payload, .int now⟩ d =
      (lift .log ((Log.stamped lifetime ss).push (.int now) (.bytes .fixed payload)) >>=
        fun log => do
          store position log
          return ⟨payload, .int now⟩) d := by
    unfold settle
    rw [bind_get, logAt, hlog]
  rw [Log.push_stamped hordered] at hrun
  cases hahead : Stamp.ahead? now ss with
  | some latest =>
      simp only [hahead] at hrun
      rw [bind_of_error (lift_error .log _ _)] at hrun
      exact .inl ⟨_, hrun⟩
  | none =>
      simp only [hahead] at hrun
      rw [bind_of_ok (lift_ok .log _ _)] at hrun
      exact .inr ⟨ss, hordered, hahead, hrun⟩

/-! A sound feed stays so, whatever is done to it -/

theorem sound_clean : Leads (StaysSound lifetime) (clean : Act ω Nat) := by
  intro d h
  obtain ⟨now, hclock⟩ := h.whole d.clock.reads
  obtain ⟨hheld, hlength, hposition⟩ := h.ticked.held
  rcases h.clean_eq hclock with ⟨fault, hrun⟩ | ⟨ss, count, hordered, hrun⟩
  · rw [hrun]
    exact ⟨h.ticked, Nat.le_refl _⟩
  · rw [hrun]
    refine ⟨hheld.showing hposition (hordered.liveAt lifetime now), ?_⟩
    rw [ending, Delivery.showing, List.length_set]
    exact hlength

theorem sound_react (hnested : ∀ payload, Leads (StaysSound lifetime) (nested payload))
    (event : Event) (number : Nat) (reaction : Reaction) :
    Leads (StaysSound lifetime) (react listener nested event number reaction) := by
  by_cases hpassive : reaction.isPassive = true
  · exact (undisturbed_react listener nested event number hpassive).imp fun _ _ =>
      StaysSound.of_undisturbed
  · refine Leads.bind (sound_leave listener _) ?_
    intro _
    cases reaction with
    | record | fail only | read => exact absurd rfl hpassive
    | clean => exact Leads.bind sound_clean fun _ => sound_leave listener _
    | reset => exact fun d h => ⟨⟨h.lifetime_eq, h.whole, h.logs, nofun⟩, Nat.le_refl _⟩
    | push data => exact hnested data
    | enrol => exact fun d h => ⟨⟨h.lifetime_eq, h.whole, h.logs, h.shown⟩, Nat.le_refl _⟩

theorem sound_tell (hnested : ∀ payload, Leads (StaysSound lifetime) (nested payload))
    (event : Event) (number : Nat) (reactions : List Reaction) :
    Leads (StaysSound lifetime) (tell listener nested event number reactions) :=
  leads_tell (fun reaction _ number => sound_react hnested event number reaction) number

theorem sound_deliver (hnested : ∀ payload, Leads (StaysSound lifetime) (nested payload))
    (event : Event) : Leads (StaysSound lifetime) (deliver listener nested event) := by
  refine Leads.bind Leads.get fun d => ?_
  refine Leads.bind (sound_tell hnested event 0 d.subscribers) fun _ => ?_
  refine Leads.bind Leads.get fun e => ?_
  exact sound_tell (fun _ => Leads.pure ()) event _ _

/-- When all have been told, what is left of a push is to settle it in a log that is in use. -/
theorem Sound.settle_ends (h : e.Sound lifetime) (hgrown : d.logs.length ≤ e.logs.length)
    {position : Nat} (hposition : position < e.logs.length) {data : Value} {payload : Bytes}
    (hoctets : Log.octets data = .ok payload) :
    PushEnds lifetime now data d (settle position ⟨payload, .int now⟩ e) := by
  rcases h.settle_cases now position payload with
    ⟨fault, hsettle⟩ | ⟨ss, hordered, hahead, hsettle⟩
  · rw [hsettle]
    exact .failed fun _ => ⟨h, hgrown⟩
  · rw [hsettle]
    refine .recorded (fun _ => ⟨?_, ?_⟩) hoctets hordered hahead (log?_showing hposition _)
    · exact h.showing hposition (hordered.record hahead lifetime payload)
    · rw [Delivery.showing, List.length_set]
      exact hgrown

theorem Sound.pushWith_ends (h : d.Sound lifetime) (hclock : d.clock.Shows now)
    (hnested : ∀ payload, Leads (StaysSound lifetime) (nested payload)) (origin data : Value) :
    PushEnds lifetime now data d (pushWith listener nested origin data d) := by
  obtain ⟨hheld, hlength, hposition⟩ := h.ticked.held
  rw [pushWith_eq hclock]
  cases Feed.authorise d.authority origin with
  | error fault => exact .failed (Std.Refl.refl d)
  | ok _ =>
      cases hoctets : Log.octets data with
      | error fault => exact .failed fun _ => ⟨h.ticked, Nat.le_refl _⟩
      | ok payload =>
          simp only []
          cases (d.ticked.holding.2.logAt d.ticked.holding.1).checkTime (.int now) with
          | error fault => exact .failed fun _ => ⟨hheld, hlength⟩
          | ok _ =>
              simp only []
              have hdelivers : Leads (StaysSound lifetime)
                  (deliver listener nested ⟨payload, .int now⟩) := sound_deliver hnested _
              have hstays := hdelivers d.ticked.holding.2 hheld
              cases hdeliver : deliver listener nested ⟨payload, .int now⟩
                  d.ticked.holding.2 with
              | error fault e =>
                  rw [hdeliver] at hstays
                  rw [bind_of_error hdeliver]
                  exact .failed fun _ => ⟨hstays.1, Nat.le_trans hlength hstays.2⟩
              | ok _ e =>
                  rw [hdeliver] at hstays
                  rw [bind_of_ok hdeliver]
                  obtain ⟨hsound, hgrown⟩ := hstays
                  have hgrown' : d.logs.length ≤ e.logs.length := Nat.le_trans hlength hgrown
                  exact Sound.settle_ends hsound hgrown' (Nat.lt_of_lt_of_le hposition hgrown)
                    hoctets

theorem sound_pushWith (hnested : ∀ payload, Leads (StaysSound lifetime) (nested payload))
    (origin data : Value) :
    Leads (StaysSound lifetime) (pushWith listener nested origin data) := by
  intro d h
  obtain ⟨now, hclock⟩ := h.whole d.clock.reads
  exact (h.pushWith_ends hclock hnested origin data).staysSound h

theorem Repushes.staysSound {notes : ω → List Note} {act : Act ω α}
    (hact : Repushes listener notes act) : Leads (StaysSound lifetime) act := by
  induction hact with
  | inward hinward =>
      intro d h
      obtain ⟨a, world, pushesLeft, hrun, -⟩ := hinward d
      rw [hrun]
      exact ⟨⟨h.lifetime_eq, h.whole, h.logs, h.shown⟩, Nat.le_refl _⟩
  | bind _ _ ihfirst ihnext => exact Leads.bind ihfirst ihnext
  | push _ container payload ih =>
      exact Leads.bind Leads.get fun d => sound_pushWith ih _ _

theorem Sound.push_ends (h : d.Sound lifetime) (hclock : d.clock.Shows now)
    (listener : Listener ω) (depth : Nat) (origin data : Value) :
    PushEnds lifetime now data d (push listener depth origin data d) := by
  obtain ⟨nested, hnested, hpush⟩ := push_repushes listener (fun _ => []) depth
  rw [hpush]
  exact h.pushWith_ends hclock (fun payload => (hnested payload).staysSound) origin data

theorem sound_push (listener : Listener ω) (depth : Nat) (origin data : Value) :
    Leads (StaysSound lifetime) (push listener depth origin data) := by
  intro d h
  obtain ⟨now, hclock⟩ := h.whole d.clock.reads
  exact (h.push_ends hclock listener depth origin data).staysSound h

/-- What may have become of a feed in the middle of an operation, where a subscriber may change it
in turn: pushes have been admitted, subscribers have been told of events and have reacted, and the
subscriber has taken note and uses up one of the pushes that are left. -/
inductive Amid (listener : Listener ω) (d : Delivery ω) : Delivery ω → Prop where
  | start : Amid listener d d
  | admitted {e : Delivery ω} (h : Amid listener d e) : Amid listener d e.ticked.holding.2
  | told {e : Delivery ω} (h : Amid listener d e) {nested : Bytes → Act ω Unit}
      (hnested : ∀ payload, Repushes listener (fun _ => []) (nested payload)) (event : Event)
      (number : Nat) (reactions : List Reaction) :
      Amid listener d (ending (tell listener nested event number reactions e))
  | inward {e : Delivery ω} (h : Amid listener d e) (world : ω) (pushesLeft : Nat) :
      Amid listener d { e with world, pushesLeft }

theorem Sound.amid (h : d.Sound lifetime) (hamid : d.Amid listener e) : e.Sound lifetime := by
  induction hamid with
  | start => exact h
  | admitted _ ih => exact ih.ticked.held.1
  | told _ hnested event number reactions ih =>
      exact (sound_tell (fun payload => (hnested payload).staysSound) event number reactions _ ih).1
  | inward _ world pushesLeft ih => exact ⟨ih.lifetime_eq, ih.whole, ih.logs, ih.shown⟩

/-- An accepted change leaves a log that fills the window at the time that the clock shows to it.
The last entry after a push is the one pushed. -/
structure KeepsWindow (listener : Listener ω) (lifetime : Int) (d : Delivery ω) : Prop where
  push : ∀ depth origin data event e, push listener depth origin data d = .ok event e →
    ∃ now payload log, d.clock.Shows now ∧ Log.octets data = .ok payload ∧
      event = ⟨payload, .int now⟩ ∧ e.log? = some log ∧ log.Fills lifetime now ∧
      log.entries.getLast? = some ⟨payload, .int now⟩
  clean : ∀ count e, clean d = .ok count e →
    ∃ now log, d.clock.Shows now ∧ e.log? = some log ∧ log.Fills lifetime now

theorem Sound.keepsWindow (hlifetime : 0 < lifetime) (h : d.Sound lifetime)
    (listener : Listener ω) : d.KeepsWindow listener lifetime := by
  obtain ⟨now, hclock⟩ := h.whole d.clock.reads
  constructor
  · intro depth origin data event e hpush
    have hends := h.push_ends hclock listener depth origin data
    rw [hpush] at hends
    cases hends with
    | recorded _ hoctets hordered hahead hlog =>
        refine ⟨now, _, _, hclock, hoctets, rfl, hlog,
          Log.fills_recorded hlifetime hordered hahead _, ?_⟩
        rw [Log.stamped_entries, List.map_append, List.map_singleton, List.getLast?_concat]
        rfl
  · intro count e hclean
    rcases h.clean_eq hclock with ⟨fault, hrun⟩ | ⟨ss, count', hordered, hrun⟩
    · rw [hrun] at hclean
      cases hclean
    · rw [hrun] at hclean
      cases hclean
      exact ⟨now, _, hclock, log?_showing h.ticked.held.2.2 _, Log.fills_liveAt hordered _ _⟩

end Delivery

namespace Session

variable {ω : Type} {listener : Listener ω} {lifetime now : Int} {s t : Session ω}

/-- A feed with whole times whose clock shows whole numbers. -/
structure Counts (lifetime : Int) (s : Session ω) : Prop where
  holds : ∃ held, s.feed.Holds lifetime held
  whole : s.clock.IsWhole

theorem Counts.begin_sound (h : s.Counts lifetime) : s.begin.Sound lifetime := by
  obtain ⟨held, hfeed⟩ := h.holds
  refine ⟨hfeed.lifetime_eq, h.whole, ?_, fun _ => lt_of_shown_begin⟩
  intro log hlog
  rw [mem_logs_begin, hfeed.log_eq] at hlog
  obtain ⟨ss, rfl, rfl⟩ := Option.map_eq_some_iff.mp hlog
  exact ⟨ss, rfl, hfeed.ordered⟩

theorem Counts.finish (h : s.Counts lifetime) {d : Delivery ω} (hd : d.Sound lifetime) :
    (s.finish d).Counts lifetime := by
  obtain ⟨held, hfeed⟩ := h.holds
  refine ⟨?_, hd.whole⟩
  cases hlog : d.log? with
  | none => exact ⟨none, hfeed.lifetime_eq, hlog, List.Pairwise.nil⟩
  | some log =>
      obtain ⟨ss, rfl, hordered⟩ := hd.logs log (Delivery.mem_of_log? hlog)
      exact ⟨some ss, hfeed.lifetime_eq, hlog, hordered⟩

theorem Counts.run {α : Type} {act : Delivery.Act ω α}
    (hact : Leads (Delivery.StaysSound lifetime) act) (h : s.Counts lifetime) :
    (ending (run act s)).Counts lifetime := by
  have hsound := (hact s.begin h.begin_sound).1
  unfold Session.run
  cases hrun : act s.begin with
  | ok a d =>
      rw [hrun] at hsound
      exact h.finish hsound
  | error fault d =>
      rw [hrun] at hsound
      exact h.finish hsound

/-- A snapshot that is loaded is in order; if its times are whole, so are those of the feed. -/
theorem Counts.load (h : s.Counts lifetime) {snapshot : Value}
    (hload : s.load snapshot = .ok () t) (hwhole : ∀ log, t.feed.log = some log → log.IsWhole) :
    t.Counts lifetime := by
  obtain ⟨held, hfeed⟩ := h.holds
  unfold Session.load at hload
  cases hresult : s.feed.load snapshot with
  | error fault =>
      simp only [hresult] at hload
      cases hload
  | ok feed =>
      simp only [hresult] at hload
      cases hload
      refine ⟨?_, h.whole⟩
      unfold Feed.load at hresult
      split at hresult
      · cases hresult
        exact ⟨none, hfeed.lifetime_eq, rfl, List.Pairwise.nil⟩
      · obtain ⟨log, hdecode, heq⟩ := bind_eq_ok_iff.mp hresult
        cases heq
        have htells := Snapshot.decode_eq_ok_iff.mp (mapError_eq_ok_iff.mp hdecode)
        have hlifetime := htells.lifetime_eq
        rw [hfeed.lifetime_eq,
          Snapshot.lifetimeOf_given _ (nofun : Value.int lifetime ≠ .null)] at hlifetime
        obtain ⟨ss, rfl, hordered⟩ := (hwhole log rfl).exists_stamped
          (Except.ok.inj hlifetime).symm (Log.checkOrder_eq_ok_iff.mp htells.ordered)
        exact ⟨some ss, hfeed.lifetime_eq, rfl, hordered⟩

/-- The log of a feed fills the window at a time, and a read at that time shows all of it. -/
structure Filled (lifetime now : Int) (log : Log) (s : Session ω) : Prop where
  log_eq : s.feed.log = some log
  fills : log.Fills lifetime now
  read_eq : ∀ clock : Clock, clock.Shows now →
    ∃ t, read { s with clock } = .ok (some (log.entries.map Entry.payload)) t

theorem filled_of_fills {log : Log} (hlog : s.feed.log = some log)
    (hfills : log.Fills lifetime now) : s.Filled lifetime now log :=
  ⟨hlog, hfills, fun _ hclock => ⟨_, read_of_live hlog hclock hfills.live_eq⟩⟩

theorem run_eq_ok_iff {α : Type} {act : Delivery.Act ω α} {a : α} :
    run act s = .ok a t ↔ ∃ d, act s.begin = .ok a d ∧ t = s.finish d := by
  unfold run
  cases act s.begin <;> simp [eq_comm]

variable [Limits]

theorem ending_perform (listener : Listener ω) (operation : Operation) (s : Session ω) :
    (s.perform listener operation).2 =
      match operation with
      | .push origin data => ending (push listener origin data s)
      | .clean => ending (clean s)
      | .read => ending (read s) := by
  cases operation with
  | push origin data => simp only [perform]; cases push listener origin data s <;> rfl
  | clean => simp only [perform]; cases clean s <;> rfl
  | read => simp only [perform]; cases read s <;> rfl

/-- Whatever is asked of a feed with whole times, its times stay whole. -/
theorem Counts.perform (h : s.Counts lifetime) (listener : Listener ω) (operation : Operation) :
    (s.perform listener operation).2.Counts lifetime := by
  rw [ending_perform]
  cases operation with
  | push origin data => exact h.run (Delivery.sound_push listener _ origin data)
  | clean => exact h.run Delivery.sound_clean
  | read => exact h.run (Delivery.leads_read Delivery.sound_consult)

/-- What may become of a feed.  It is asked to do something and does it or not, gets one more
subscriber, or a snapshot with whole times is loaded; and at any time the clock may be set, as long
as it shows whole numbers, and the surroundings may change. -/
inductive Reaches (listener : Listener ω) (s : Session ω) : Session ω → Prop where
  | start : Reaches listener s s
  | perform {t : Session ω} (h : Reaches listener s t) (operation : Operation) :
      Reaches listener s (t.perform listener operation).2
  | subscribe {t : Session ω} (h : Reaches listener s t) (reaction : Reaction) :
      Reaches listener s { t with feed := t.feed.subscribe reaction }
  | load {t u : Session ω} (h : Reaches listener s t) {snapshot : Value}
      (hload : t.load snapshot = .ok () u)
      (hwhole : ∀ log, u.feed.log = some log → log.IsWhole) : Reaches listener s u
  | turn {t : Session ω} (h : Reaches listener s t) {clock : Clock} (hwhole : clock.IsWhole)
      (world : ω) : Reaches listener s { t with clock, world }

/-- The times of a feed stay whole, whatever becomes of it. -/
theorem Counts.reaches (h : s.Counts lifetime) (hreaches : s.Reaches listener t) :
    t.Counts lifetime := by
  induction hreaches with
  | start => exact h
  | perform _ operation ih => exact ih.perform listener operation
  | subscribe _ reaction ih =>
      obtain ⟨⟨held, hfeed⟩, hwhole⟩ := ih
      exact ⟨⟨held, hfeed.lifetime_eq, hfeed.log_eq, hfeed.ordered⟩, hwhole⟩
  | load _ hload hwhole ih => exact ih.load hload hwhole
  | turn _ hwhole world ih => exact ⟨ih.holds, hwhole⟩

/-- An accepted change leaves a feed whose log fills the window at the time that the clock shows to
it.  The last entry after a push is the one pushed. -/
structure KeepsWindow (listener : Listener ω) (lifetime : Int) (s : Session ω) : Prop where
  push : ∀ origin data event t, push listener origin data s = .ok event t →
    ∃ now payload log, s.clock.Shows now ∧ Log.octets data = .ok payload ∧
      event = ⟨payload, .int now⟩ ∧ t.Filled lifetime now log ∧
      log.entries.getLast? = some ⟨payload, .int now⟩
  clean : ∀ count t, clean s = .ok count t →
    ∃ now log, s.clock.Shows now ∧ t.Filled lifetime now log

theorem Counts.keepsWindow (hlifetime : 0 < lifetime) (h : s.Counts lifetime)
    (listener : Listener ω) : s.KeepsWindow listener lifetime := by
  have hkeeps := h.begin_sound.keepsWindow hlifetime listener
  constructor
  · intro origin data event t hpush
    obtain ⟨d, hrun, rfl⟩ := run_eq_ok_iff.mp hpush
    obtain ⟨now, payload, log, hclock, hoctets, hevent, hlog, hfills, hlast⟩ :=
      hkeeps.push _ origin data event d hrun
    exact ⟨now, payload, log, hclock, hoctets, hevent, filled_of_fills hlog hfills, hlast⟩
  · intro count t hclean
    obtain ⟨d, hrun, rfl⟩ := run_eq_ok_iff.mp hclean
    obtain ⟨now, log, hclock, hlog, hfills⟩ := hkeeps.clean count d hrun
    exact ⟨now, log, hclock, filled_of_fills hlog hfills⟩

end Session
end LiveFeed
