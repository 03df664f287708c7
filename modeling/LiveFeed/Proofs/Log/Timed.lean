/-
Logs whose times are whole numbers in order, whatever their lifetime is.  They stay of that kind as
they change, and if such a log can be read at a time at all, it shows its live entries.
-/
import LiveFeed.Proofs.Log.Age
import LiveFeed.Proofs.Log.Stamp

namespace LiveFeed

namespace Value

/-- Whether a whole age has not reached a lifetime that is a number. -/
def isYoungerThan (lifetime : Number) (age : Int) : Bool :=
  !Comparison.atLeast.holds ((Number.whole age).compare? lifetime)

/-- What is no older than something young is young. -/
theorem isYoungerThan_of_le {lifetime : Number} {age age' : Int} (hle : age' ≤ age)
    (hyoung : isYoungerThan lifetime age = true) : isYoungerThan lifetime age' = true := by
  cases hplace : lifetime.place? with
  | none =>
      rw [isYoungerThan, Number.compare?_of_no_place (.inr hplace)]
      rfl
  | some place =>
      have hyounger (n : Int) : isYoungerThan lifetime n = true ↔ ((n : ℝ) : EReal) < place := by
        have hn : (Number.whole n).place? = some ((n : ℝ) : EReal) := rfl
        rw [isYoungerThan, Number.compare?_of_places hn hplace, Bool.not_eq_true',
          ← Bool.not_eq_true, Comparison.holds_atLeast_cmp_iff, not_le]
      rw [hyounger] at hyoung ⊢
      have hcast : ((age' : ℝ) : EReal) ≤ ((age : ℝ) : EReal) := by exact_mod_cast hle
      exact hcast.trans_lt hyoung

end Value

namespace Stamp

variable {lifetime : Value}

theorem isLive_entry_of_number {n : Number} (hn : lifetime.number? = some n) (now : Int)
    (s : Stamp) :
    s.entry.isLive lifetime (.int now) = .ok (Value.isYoungerThan n (now - s.time)) := by
  have hage : (Value.int (now - s.time)).number? = some (.whole (now - s.time)) := rfl
  simp only [Entry.isLive, entry, Value.subtract_int, bind, Except.bind,
    Value.order_of_numbers _ hage hn, pure, Except.pure, Value.isYoungerThan]

/-- Without a number for its lifetime an entry cannot be judged. -/
theorem isLive_entry_of_no_number (hn : lifetime.number? = none) (now : Int) (s : Stamp) :
    ∃ cause, s.entry.isLive lifetime (.int now) = .error cause := by
  simp only [Entry.isLive, entry, Value.subtract_int, bind, Except.bind]
  cases horder : Value.order .atLeast (.int (now - s.time)) lifetime with
  | error cause => exact ⟨cause, rfl⟩
  | ok reached =>
      have hsame := Value.isSome_number?_of_order horder
      rw [hn] at hsame
      cases hsame

end Stamp

namespace Log

/-- A log with whole times in order. -/
structure Timed (log : Log) (lifetime : Value) : Prop where
  lifetime_eq : log.lifetime = lifetime
  stamps : ∃ ss, log.entries = ss.map Stamp.entry ∧ Stamp.Ordered ss

variable {log : Log} {lifetime : Value} {now : Int}

theorem timed_of_accepted {entries : List Entry} (haccepted : ofEntries? lifetime entries = .ok log)
    (hwhole : log.IsWhole) : log.Timed lifetime := by
  obtain ⟨rfl, hchecked⟩ := ofEntries?_eq_ok_iff.mp haccepted
  have hcounted : ofEntries? (.int 0) entries = .ok ⟨.int 0, entries⟩ :=
    ofEntries?_eq_ok_iff.mpr ⟨rfl, hchecked⟩
  obtain ⟨ss, hss, -, hordered⟩ := exists_stamped_of_accepted hcounted hwhole
  exact ⟨rfl, ss, hss, hordered⟩

/-- With a number for its lifetime a log can be read at every time, and shows its live entries. -/
theorem Timed.live_of_number (h : log.Timed lifetime) {n : Number}
    (hn : lifetime.number? = some n) (now : Int) :
    ∃ live, log.Judged (.int now) live ∧
      log.live (.int now) = .ok ((log.entries.filter live).map Entry.payload) := by
  obtain ⟨ss, hss, hordered⟩ := h.stamps
  let live (e : Entry) : Bool := (e.isLive lifetime (.int now)).toOption.getD false
  have hlive (s : Stamp) : live s.entry = Value.isYoungerThan n (now - s.time) := by
    simp only [live, Stamp.isLive_entry_of_number hn]
    rfl
  have hjudged : log.Judged (.int now) live := by
    rw [Judged, h.lifetime_eq, hss]
    intro e he
    obtain ⟨s, -, rfl⟩ := List.mem_map.mp he
    rw [hlive, Stamp.isLive_entry_of_number hn]
  have hlasting : Lasting live log.entries := by
    rw [hss, Lasting, List.pairwise_map]
    refine List.Pairwise.imp ?_ hordered
    intro a b hle hyoung
    rw [hlive] at hyoung ⊢
    exact Value.isYoungerThan_of_le (by omega) hyoung
  exact ⟨live, hjudged, hjudged.live_of_lasting hlasting⟩

/-- If a log can be read at all, it shows its live entries. -/
theorem Timed.live_eq (h : log.Timed lifetime) {payloads : List Bytes}
    (hread : log.live (.int now) = .ok payloads) :
    ∃ live, log.Judged (.int now) live ∧
      payloads = (log.entries.filter live).map Entry.payload := by
  cases hn : lifetime.number? with
  | some n =>
      obtain ⟨live, hjudged, hshown⟩ := h.live_of_number hn now
      exact ⟨live, hjudged, Except.ok.inj (hread.symm.trans hshown)⟩
  | none =>
      obtain ⟨ss, hss, -⟩ := h.stamps
      by_cases hempty : log.entries = []
      · have hjudged : log.Judged (.int now) fun _ => true := by
          rw [Judged, hempty]
          exact nofun
        have hlasting : Lasting (fun _ => true) log.entries := by
          rw [hempty]
          exact List.Pairwise.nil
        exact ⟨_, hjudged, Except.ok.inj (hread.symm.trans (hjudged.live_of_lasting hlasting))⟩
      · have hunjudged : ∀ e ∈ log.entries,
            ∃ cause, e.isLive log.lifetime (.int now) = .error cause := by
          rw [h.lifetime_eq, hss]
          intro e he
          obtain ⟨s, -, rfl⟩ := List.mem_map.mp he
          exact Stamp.isLive_entry_of_no_number hn now s
        obtain ⟨cause, herror⟩ := boundary_error hempty hunjudged
        rw [live_eq_error_iff.mpr herror] at hread
        cases hread

variable [Limits]

/-- Eviction leaves a log of the same kind, which the time is not behind. -/
theorem Timed.evict (h : log.Timed lifetime) {count : Nat} {kept : Log}
    (hevict : log.evict (.int now) = .ok (count, kept)) :
    kept.lifetime = lifetime ∧ ∃ ss, kept.entries = ss.map Stamp.entry ∧ Stamp.Ordered ss ∧
      ∀ s ∈ ss, s.time ≤ now := by
  obtain ⟨ss, hss, hordered⟩ := h.stamps
  obtain ⟨_, htime, hevict⟩ := bind_eq_ok_iff.mp hevict
  obtain ⟨_, -, hevict⟩ := bind_eq_ok_iff.mp hevict
  cases hevict
  have hahead : Stamp.ahead? now ss = none := by
    have hchecked : (stamped 0 ss).checkTime (.int now) = .ok () := by
      rw [← htime, checkTime, checkTime, latest?, latest?, hss]
      rfl
    rw [checkTime_stamped] at hchecked
    cases hahead : Stamp.ahead? now ss with
    | none => rfl
    | some latest =>
        rw [hahead] at hchecked
        cases hchecked
  refine ⟨h.lifetime_eq, ss.drop count, ?_, hordered.sublist (List.drop_sublist count ss), ?_⟩
  · rw [List.map_drop, ← hss]
  · intro s hs
    exact hordered.time_le hahead s (List.mem_of_mem_drop hs)

theorem Timed.push (h : log.Timed lifetime) {payload : Value} {next : Log}
    (hpush : log.push (.int now) payload = .ok next) : next.Timed lifetime := by
  obtain ⟨octets, -, hpush⟩ := bind_eq_ok_iff.mp hpush
  obtain ⟨⟨count, kept⟩, hevict, hpush⟩ := bind_eq_ok_iff.mp hpush
  cases hpush
  obtain ⟨hlifetime, ss, hss, hordered, hle⟩ := h.evict hevict
  refine ⟨hlifetime, ss ++ [⟨octets, now⟩], ?_, ?_⟩
  · rw [List.map_append, ← hss]
    rfl
  · rw [Stamp.Ordered, List.pairwise_append]
    refine ⟨hordered, List.pairwise_singleton _ _, ?_⟩
    intro s hs newest hnewest
    rw [List.mem_singleton.mp hnewest]
    exact hle s hs

end Log
end LiveFeed
