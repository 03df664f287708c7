/-
Logs whose times and lifetime are whole numbers, on the scale that is counted.  For them every
operation of a log is a plain function of a list of stamped payloads, and eviction is a filter:
along an ordered list the expired stamps come first.
-/
import LiveFeed.Proofs.Log.Scale
import Mathlib.Data.Set.List

namespace LiveFeed

/-- A payload with a whole number for its time. -/
structure Stamp where
  payload : Bytes
  time : Int
deriving Repr, DecidableEq

namespace Stamp

/-- A stamp as the entry of a log. -/
def entry (s : Stamp) : Entry := ⟨s.payload, .int s.time⟩

/-- Whether a stamp is younger than the lifetime. -/
def isLive (lifetime now : Int) (s : Stamp) : Bool := now - s.time < lifetime

/-- Along the list times never decrease. -/
def Ordered (ss : List Stamp) : Prop := ss.Pairwise fun a b => a.time ≤ b.time

/-- The stamps that are live at a time. -/
def liveAt (lifetime now : Int) (ss : List Stamp) : List Stamp := ss.filter (isLive lifetime now)

/-- The stamps that have expired at a time. -/
def expiredAt (lifetime now : Int) (ss : List Stamp) : List Stamp :=
  ss.filter fun s => !s.isLive lifetime now

/-- The time of the newest stamp, if it is later than the given one. -/
def ahead? (now : Int) (ss : List Stamp) : Option Int :=
  (ss.getLast?.map time).filter fun latest => now < latest

variable {lifetime now : Int} {ss : List Stamp}

theorem ahead?_eq_some_iff {latest : Int} :
    ahead? now ss = some latest ↔ ss.getLast?.map time = some latest ∧ now < latest := by
  simp [ahead?, Option.filter_eq_some_iff]

theorem ahead?_eq_none_iff :
    ahead? now ss = none ↔ ∀ last, ss.getLast? = some last → last.time ≤ now := by
  cases hlast : ss.getLast? with
  | none => simp [ahead?, hlast]
  | some last => simp [ahead?, hlast, Option.filter_eq_none_iff]

theorem isLive_entry (lifetime now : Int) (s : Stamp) :
    s.entry.isLive (.int lifetime) (.int now) = .ok (s.isLive lifetime now) := by
  simp only [Entry.isLive, entry, isLive, Value.subtract_int, bind, Except.bind, Value.order_int,
    Value.Comparison.holds_atLeast, pure, Except.pure]
  by_cases hlive : now - s.time < lifetime
  · simp [hlive]
  · simp [hlive, Int.not_lt.mp hlive]

theorem isLive_later {a b : Stamp} (hle : a.time ≤ b.time) (ha : a.isLive lifetime now = true) :
    b.isLive lifetime now = true := by
  simp only [isLive, decide_eq_true_eq] at ha ⊢
  omega

theorem Ordered.liveAt (h : Ordered ss) (lifetime now : Int) : Ordered (liveAt lifetime now ss) :=
  List.Pairwise.filter _ h

theorem ahead?_concat_now (now : Int) (ss : List Stamp) (payload : Bytes) :
    ahead? now (ss ++ [⟨payload, now⟩]) = none := by
  apply ahead?_eq_none_iff.mpr
  intro last hlast
  rw [List.getLast?_concat] at hlast
  cases hlast
  exact Int.le_refl now

theorem liveAt_of_new (hlifetime : 0 < lifetime) (hnew : ∀ s ∈ ss, s.time = now) :
    liveAt lifetime now ss = ss := by
  apply List.filter_eq_self.mpr
  intro s hs
  have hage : now - s.time = 0 := by
    rw [hnew s hs]
    omega
  simpa [isLive, hage] using hlifetime

/-- If the newest stamp of an ordered list is not ahead of a time, none is. -/
theorem Ordered.time_le (h : Ordered ss) (hnow : ahead? now ss = none) :
    ∀ s ∈ ss, s.time ≤ now := by
  intro s hs
  cases ss using List.reverseRecOn with
  | nil => simp at hs
  | append_singleton init newest =>
      have hnewest : newest.time ≤ now := by
        simpa using ahead?_eq_none_iff.mp hnow newest
      rcases List.mem_append.mp hs with hinit | hend
      · have hle := (List.pairwise_append.mp h).2.2 s hinit newest List.mem_cons_self
        exact Int.le_trans hle hnewest
      · rw [List.mem_singleton] at hend
        subst hend
        exact hnewest

/-- What a push leaves is ordered. -/
theorem Ordered.record (h : Ordered ss) (hnow : ahead? now ss = none) (lifetime : Int)
    (payload : Bytes) : Ordered (Stamp.liveAt lifetime now ss ++ [⟨payload, now⟩]) := by
  rw [Ordered, List.pairwise_append]
  refine ⟨h.liveAt lifetime now, List.pairwise_singleton _ _, ?_⟩
  intro s hs last hlast
  rw [List.mem_singleton] at hlast
  subst hlast
  exact h.time_le hnow s (List.mem_filter.mp hs).1

theorem Ordered.lasting (h : Ordered ss) (lifetime now : Int) : Lasting (isLive lifetime now) ss :=
  List.Pairwise.imp isLive_later h

/-- Of an ordered list the expired stamps come first and the live ones last. -/
theorem expiredAt_append_liveAt (h : Ordered ss) (lifetime now : Int) :
    expiredAt lifetime now ss ++ liveAt lifetime now ss = ss :=
  (h.lasting lifetime now).filter_not_append_filter

theorem ahead?_append_of_le {dropped : List Stamp} (h : ∀ s ∈ dropped, s.time ≤ now) :
    ahead? now (dropped ++ ss) = ahead? now ss := by
  cases hlast : ss.getLast? with
  | none =>
      rw [List.getLast?_eq_none_iff] at hlast
      subst hlast
      rw [List.append_nil]
      have hnil : ahead? now [] = none := rfl
      rw [hnil, ahead?_eq_none_iff]
      intro last hmem
      exact h last (List.mem_of_getLast? hmem)
  | some last => simp [ahead?, List.getLast?_append, hlast]

theorem liveAt_append_of_expired {dropped : List Stamp}
    (h : ∀ s ∈ dropped, s.isLive lifetime now = false) :
    liveAt lifetime now (dropped ++ ss) = liveAt lifetime now ss := by
  have hnone : dropped.filter (isLive lifetime now) = [] := by
    rw [List.filter_eq_nil_iff]
    intro s hs
    simp [h s hs]
  simp only [liveAt, List.filter_append, hnone, List.nil_append]

/-- What has expired stays expired. -/
theorem isLive_eq_false_later {s : Stamp} {later : Int} (hle : now ≤ later)
    (h : s.isLive lifetime now = false) : s.isLive lifetime later = false := by
  simp only [isLive, decide_eq_false_iff_not] at h ⊢
  omega

theorem hasExpired_entry (lifetime now : Int) (s : Stamp) :
    Scale.counted.hasExpired lifetime now s.entry = !s.isLive lifetime now := by
  simp only [Scale.hasExpired, Scale.place?, entry, isLive, Option.any_some, ← decide_not,
    Int.not_lt]

end Stamp

namespace Log

/-- The log of a list of stamps. -/
def stamped (lifetime : Int) (ss : List Stamp) : Log := ⟨.int lifetime, ss.map Stamp.entry⟩

@[simp] theorem stamped_lifetime (lifetime : Int) (ss : List Stamp) :
    (stamped lifetime ss).lifetime = .int lifetime := rfl

@[simp] theorem stamped_entries (lifetime : Int) (ss : List Stamp) :
    (stamped lifetime ss).entries = ss.map Stamp.entry := rfl

variable {lifetime now : Int} {ss : List Stamp}

theorem stamped_injective (lifetime : Int) : Function.Injective (stamped lifetime) := by
  intro first second h
  apply (List.map_inj_right ?_).mp (congrArg entries h)
  rintro ⟨_, _⟩ ⟨_, _⟩ hentry
  cases hentry
  rfl

theorem octets_eq_ok_iff {data : Value} {payload : Bytes} :
    octets data = .ok payload ↔ ∃ container, data = .bytes container payload := by
  cases data <;> simp [octets]

theorem inOrder_stamped (lifetime : Int) (h : Stamp.Ordered ss) :
    InOrder (stamped lifetime ss).entries := by
  rw [InOrder, stamped_entries, List.isChain_map]
  refine (List.Pairwise.imp ?_ h).isChain
  intro a b hle
  simp only [Stamp.entry, Value.order_int, Value.Comparison.holds_less, Int.not_lt.mpr hle,
    decide_false]

theorem checkOrder_stamped (h : Stamp.Ordered ss) : checkOrder (ss.map Stamp.entry) = .ok () :=
  checkOrder_eq_ok_iff.mpr (inOrder_stamped 0 h)

/-- All times are whole numbers. -/
theorem measures_stamped (lifetime : Int) (ss : List Stamp) :
    Scale.counted.Measures (stamped lifetime ss) lifetime := by
  refine ⟨rfl, ?_⟩
  intro e he
  obtain ⟨s, -, rfl⟩ := List.mem_map.mp he
  exact ⟨s.time, rfl⟩

/-- The times of a log are whole numbers. -/
def IsWhole (log : Log) : Prop := ∀ e ∈ log.entries, ∃ time, e.recordedAt = .int time

/-- A log with a whole lifetime and whole times in order is the log of some stamps in order. -/
theorem IsWhole.exists_stamped {log : Log} (h : log.IsWhole)
    (hlifetime : log.lifetime = .int lifetime) (hordered : InOrder log.entries) :
    ∃ ss, log = stamped lifetime ss ∧ Stamp.Ordered ss := by
  have hrange : log.entries ∈ Set.range (List.map Stamp.entry) := by
    rw [Set.range_list_map]
    intro e he
    obtain ⟨time, htime⟩ := h e he
    exact ⟨⟨e.payload, time⟩, by rw [Stamp.entry, ← htime]⟩
  obtain ⟨ss, hss⟩ := hrange
  obtain rfl : log = stamped lifetime ss := by
    rw [stamped, hss, ← hlifetime]
  have hplaces := List.pairwise_map.mp ((measures_stamped lifetime ss).pairwise hordered)
  exact ⟨ss, rfl, hplaces⟩

/-- An accepted log with a whole lifetime and whole times is the log of some stamps in order. -/
theorem exists_stamped_of_accepted {entries : List Entry} {log : Log}
    (haccepted : ofEntries? (.int lifetime) entries = .ok log) (hwhole : log.IsWhole) :
    ∃ ss, entries = ss.map Stamp.entry ∧ log = stamped lifetime ss ∧ Stamp.Ordered ss := by
  obtain ⟨rfl, hchecked⟩ := ofEntries?_eq_ok_iff.mp haccepted
  obtain ⟨ss, hlog, hordered⟩ := hwhole.exists_stamped rfl (checkOrder_eq_ok_iff.mp hchecked)
  exact ⟨ss, congrArg Log.entries hlog, hlog, hordered⟩

theorem filter_stamped (lifetime now : Int) (ss : List Stamp) :
    (stamped lifetime ss).entries.filter (fun e => !Scale.counted.hasExpired lifetime now e) =
      (Stamp.liveAt lifetime now ss).map Stamp.entry := by
  simp only [stamped_entries, List.filter_map, Function.comp_def, Stamp.hasExpired_entry,
    Bool.not_not, Stamp.liveAt]

/-- A reader sees the payloads of the live entries. -/
theorem live_stamped (h : Stamp.Ordered ss) :
    (stamped lifetime ss).live (.int now) =
      .ok ((Stamp.liveAt lifetime now ss).map Stamp.payload) := by
  rw [(measures_stamped lifetime ss).live (inOrder_stamped lifetime h) rfl, filter_stamped,
    List.map_map]
  rfl

variable [Limits]

theorem checkTime_stamped (lifetime now : Int) (ss : List Stamp) :
    (stamped lifetime ss).checkTime (.int now) =
      match Stamp.ahead? now ss with
      | some latest => .error (.ofStale (.int now) (.int latest))
      | none => .ok () := by
  simp only [checkTime, latest?, stamped, List.getLast?_map, Option.map_map, Stamp.ahead?]
  cases ss.getLast? with
  | none => rfl
  | some last =>
      by_cases hlt : now < last.time <;> simp [Stamp.entry, Option.filter, hlt]

/-- Eviction leaves the live entries of an ordered log, unless the log is ahead of the time. -/
theorem evict_stamped (h : Stamp.Ordered ss) :
    (stamped lifetime ss).evict (.int now) =
      match Stamp.ahead? now ss with
      | some latest => .error (.ofStale (.int now) (.int latest))
      | none => .ok ((Stamp.expiredAt lifetime now ss).length,
          stamped lifetime (Stamp.liveAt lifetime now ss)) := by
  have hmeasures := measures_stamped lifetime ss
  rw [(hmeasures.judged rfl).evict_of_lasting (hmeasures.lasting (inOrder_stamped lifetime h)),
    checkTime_stamped, filtered, filter_stamped]
  cases Stamp.ahead? now ss with
  | some latest => rfl
  | none =>
      simp only [Bool.not_not, stamped_entries, List.filter_map, Function.comp_def,
        Stamp.hasExpired_entry, List.length_map, Except.map, Stamp.expiredAt]
      rfl

/-- A push leaves the live entries and the new one, unless the log is ahead of the time. -/
theorem push_stamped (h : Stamp.Ordered ss) (container : Container) (payload : Bytes) :
    (stamped lifetime ss).push (.int now) (.bytes container payload) =
      match Stamp.ahead? now ss with
      | some latest => .error (.ofStale (.int now) (.int latest))
      | none => .ok (stamped lifetime (Stamp.liveAt lifetime now ss ++ [⟨payload, now⟩])) := by
  simp only [push, octets, evict_stamped h, bind, Except.bind]
  cases Stamp.ahead? now ss with
  | some latest => rfl
  | none => simp [stamped, Stamp.entry, pure, Except.pure]

end Log
end LiveFeed
