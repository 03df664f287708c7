/-
Evictions one after the other.  What has expired stays expired, so at times that never decrease they
leave together what the last of them would have left alone, and they count together what it would
have counted; evicting at once again finds nothing.
-/
import LiveFeed.Proofs.Log.Stamp
import Mathlib.Algebra.GroupWithZero.Nat

namespace LiveFeed

namespace Stamp

variable {lifetime now later : Int} {ss : List Stamp}

theorem isLive_of_mem_expiredAt {s : Stamp} (hs : s ∈ expiredAt lifetime now ss) :
    s.isLive lifetime now = false := by
  simpa using (List.mem_filter.mp hs).2

/-- To a later time it makes no difference whether the expired stamps have gone before. -/
theorem Ordered.liveAt_liveAt (h : Ordered ss) (hle : now ≤ later) :
    Stamp.liveAt lifetime later (Stamp.liveAt lifetime now ss) =
      Stamp.liveAt lifetime later ss := by
  conv_rhs => rw [← expiredAt_append_liveAt h lifetime now]
  rw [liveAt_append_of_expired]
  intro s hs
  exact isLive_eq_false_later hle (isLive_of_mem_expiredAt hs)

/-- What has expired at a later time has expired before or does so in between. -/
theorem Ordered.expiredAt_append (h : Ordered ss) (hle : now ≤ later) :
    expiredAt lifetime now ss ++ expiredAt lifetime later (Stamp.liveAt lifetime now ss) =
      expiredAt lifetime later ss := by
  have hgone : expiredAt lifetime later (expiredAt lifetime now ss) =
      expiredAt lifetime now ss := by
    apply List.filter_eq_self.mpr
    intro s hs
    rw [isLive_eq_false_later hle (isLive_of_mem_expiredAt hs)]
    rfl
  calc
    expiredAt lifetime now ss ++ expiredAt lifetime later (Stamp.liveAt lifetime now ss) =
        expiredAt lifetime later (expiredAt lifetime now ss) ++
          expiredAt lifetime later (Stamp.liveAt lifetime now ss) := by rw [hgone]
    _ = expiredAt lifetime later
          (expiredAt lifetime now ss ++ Stamp.liveAt lifetime now ss) :=
        (List.filter_append _ _).symm
    _ = expiredAt lifetime later ss := by rw [expiredAt_append_liveAt h]

/-- What an eviction leaves is not ahead of any later time. -/
theorem Ordered.ahead?_liveAt (h : Ordered ss) (hnow : ahead? now ss = none) (hle : now ≤ later) :
    ahead? later (Stamp.liveAt lifetime now ss) = none := by
  apply ahead?_eq_none_iff.mpr
  intro last hlast
  have hmem := (List.mem_filter.mp (List.mem_of_getLast? hlast)).1
  exact Int.le_trans (h.time_le hnow last hmem) hle

end Stamp

namespace Log

section

variable [Limits]

/-- Evicts at each of the given times, one after the other; tells how many entries went at each. -/
def sweep (log : Log) : List Int → Except Fault (List Nat × Log)
  | [] => .ok ([], log)
  | now :: rest => do
      let (count, kept) ← log.evict (.int now)
      let (counts, swept) ← kept.sweep rest
      return (count :: counts, swept)

variable {lifetime now : Int} {ss : List Stamp}

theorem evict_of_timely (h : Stamp.Ordered ss) (hnow : Stamp.ahead? now ss = none) :
    (stamped lifetime ss).evict (.int now) =
      .ok ((Stamp.expiredAt lifetime now ss).length,
        stamped lifetime (Stamp.liveAt lifetime now ss)) := by
  rw [evict_stamped h, hnow]

/-- At times that never decrease the last one decides. -/
theorem sweep_stamped (lifetime : Int) (h : Stamp.Ordered ss) (hnow : Stamp.ahead? now ss = none)
    {later : List Int} (hsorted : (now :: later).Pairwise (· ≤ ·)) :
    ∃ counts : List Nat, ∃ last, (now :: later).getLast? = some last ∧ now ≤ last ∧
      (stamped lifetime ss).sweep (now :: later) =
        .ok (counts, stamped lifetime (Stamp.liveAt lifetime last ss)) ∧
      counts.sum = (Stamp.expiredAt lifetime last ss).length := by
  induction later generalizing now ss with
  | nil =>
      refine ⟨[_], now, rfl, Int.le_refl now, ?_, List.sum_singleton⟩
      rw [sweep, evict_of_timely h hnow]
      rfl
  | cons second rest ih =>
      obtain ⟨hfirst, hrest⟩ := List.pairwise_cons.mp hsorted
      have hle := hfirst second List.mem_cons_self
      obtain ⟨counts, last, hlast, hle', hsweep, hsum⟩ :=
        ih (h.liveAt lifetime now) (h.ahead?_liveAt hnow hle) hrest
      have hlater := Int.le_trans hle hle'
      refine ⟨(Stamp.expiredAt lifetime now ss).length :: counts, last, ?_, hlater, ?_, ?_⟩
      · rw [List.getLast?_cons_cons, hlast]
      · rw [sweep, evict_of_timely h hnow]
        simp only [bind, Except.bind, hsweep, h.liveAt_liveAt hlater]
        rfl
      · rw [List.sum_cons, hsum, ← List.length_append, h.expiredAt_append hlater]

/-- Evicting once more at the same time finds nothing. -/
theorem evict_again (h : Stamp.Ordered ss) (hnow : Stamp.ahead? now ss = none) :
    (stamped lifetime (Stamp.liveAt lifetime now ss)).evict (.int now) =
      .ok (0, stamped lifetime (Stamp.liveAt lifetime now ss)) := by
  have hle := Int.le_refl now
  have hnone : Stamp.expiredAt lifetime now (Stamp.liveAt lifetime now ss) = [] := by
    have happend : Stamp.expiredAt lifetime now ss ++
        Stamp.expiredAt lifetime now (Stamp.liveAt lifetime now ss) =
          Stamp.expiredAt lifetime now ss := h.expiredAt_append hle
    rwa [List.append_right_eq_self] at happend
  rw [evict_of_timely (h.liveAt lifetime now) (h.ahead?_liveAt hnow hle), hnone,
    h.liveAt_liveAt hle]
  rfl

/-- Evictions compose.  Of a log that is accepted, with whole times and a whole lifetime of either
sign, evictions at times that never decrease, the first of them not before the newest entry, all
succeed.  They leave the log that a single eviction at the last of the times leaves, and their
counts sum up to its count; an eviction that is repeated at once counts nothing and changes
nothing. -/
theorem sweep_eq_evict {log : Log} {entries : List Entry} {lifetime first : Int}
    {later : List Int} (haccepted : ofEntries? (.int lifetime) entries = .ok log)
    (hwhole : log.IsWhole) (hsorted : (first :: later).Pairwise (· ≤ ·))
    (hfirst : ∀ newest time, entries.getLast? = some newest → newest.recordedAt = .int time →
      time ≤ first) :
    (∃ counts kept, log.sweep (first :: later) = .ok (counts, kept) ∧
      log.evict (.int ((first :: later).getLast (List.cons_ne_nil first later))) =
        .ok (counts.sum, kept)) ∧
    ∀ before now after, first :: later = before ++ now :: after →
      ∃ counts kept, log.sweep (before ++ [now]) = .ok (counts, kept) ∧
        kept.evict (.int now) = .ok (0, kept) := by
  obtain ⟨ss, rfl, rfl, hordered⟩ := exists_stamped_of_accepted haccepted hwhole
  have htimely : Stamp.ahead? first ss = none := by
    apply Stamp.ahead?_eq_none_iff.mpr
    intro newest hnewest
    apply hfirst newest.entry newest.time ?_ rfl
    rw [List.getLast?_map, hnewest]
    rfl
  have hlater {time : Int} (hle : first ≤ time) : Stamp.ahead? time ss = none := by
    apply Stamp.ahead?_eq_none_iff.mpr
    intro newest hnewest
    exact Int.le_trans (Stamp.ahead?_eq_none_iff.mp htimely newest hnewest) hle
  constructor
  · obtain ⟨counts, last, hlast, hle, hsweep, hsum⟩ :=
      sweep_stamped lifetime hordered htimely hsorted
    rw [List.getLast?_eq_some_getLast (List.cons_ne_nil first later), Option.some.injEq] at hlast
    refine ⟨counts, _, hsweep, ?_⟩
    rw [hlast, evict_of_timely hordered (hlater hle), hsum]
  · intro before now after hsplit
    obtain ⟨between, hbetween⟩ : ∃ between, before ++ [now] = first :: between := by
      cases before with
      | nil => exact ⟨[], congrArg ([·]) (List.cons.inj hsplit).1.symm⟩
      | cons _ between => exact ⟨between ++ [now], congrArg (· :: _) (List.cons.inj hsplit).1.symm⟩
    have hpart : (first :: between).Pairwise (· ≤ ·) := by
      rw [hsplit, ← List.singleton_append, ← List.append_assoc, hbetween] at hsorted
      exact (List.pairwise_append.mp hsorted).1
    obtain ⟨counts, last, hlast, hle, hsweep, -⟩ :=
      sweep_stamped lifetime hordered htimely hpart
    rw [← hbetween, List.getLast?_concat, Option.some.injEq] at hlast
    subst hlast
    rw [hbetween]
    exact ⟨counts, _, hsweep, evict_again hordered (hlater hle)⟩

end

open scoped Limits

/-- Evictions at four times, two of them the same, empty a log of four entries. -/
theorem sweep_eq_evict_of_four :
    let log : Log := stamped 4 [⟨[1], -5⟩, ⟨[2], 0⟩, ⟨[3], 0⟩, ⟨[4], 3⟩]
    (∃ counts, log.sweep [3, 3, 4, 9] = .ok (counts, empty (.int 4)) ∧ counts.sum = 4) ∧
      ∃ counts kept, log.sweep [3, 3] = .ok (counts, kept) ∧
        kept.evict (.int 3) = .ok (0, kept) := by
  intro log
  have hordered : Stamp.Ordered [⟨[1], -5⟩, ⟨[2], 0⟩, ⟨[3], 0⟩, ⟨[4], 3⟩] := by
    simp [Stamp.Ordered]
  have haccepted : ofEntries? (.int 4) log.entries = .ok log :=
    ofEntries?_eq_ok_iff.mpr ⟨rfl, checkOrder_stamped hordered⟩
  have hwhole : log.IsWhole := by simp [IsWhole, log, Stamp.entry]
  have hfirst : ∀ newest time, log.entries.getLast? = some newest →
      newest.recordedAt = .int time → time ≤ 3 := by
    rintro _ _ ⟨⟩ ⟨⟩
    exact Int.le_refl 3
  have hsorted : ([3, 3, 4, 9] : List Int).Pairwise (· ≤ ·) := by decide
  obtain ⟨⟨counts, kept, hsweep, hevict⟩, hagain⟩ :=
    sweep_eq_evict haccepted hwhole hsorted hfirst
  have hall : log.evict (.int 9) = .ok (4, empty (.int 4)) := evict_of_timely hordered rfl
  obtain ⟨hsum, rfl⟩ := Prod.mk.inj (Except.ok.inj (hevict.symm.trans hall))
  exact ⟨⟨counts, hsweep, hsum⟩, hagain [3] 3 [4, 9] rfl⟩

end Log
end LiveFeed
