/-
What a log is good for that is rebuilt from a snapshot.  The times of a snapshot may be any values,
and only neighbours are compared when a log is rebuilt.  Numbers have places, which put all entries
in order if the neighbours are; the float that is no number has none, and parts what comes before it
from what comes behind.  Ages keep the order, if all are exact or all are rounded alike.
-/
import LiveFeed.Proofs.Log.Age
import LiveFeed.Proofs.Log.Snapshot
import LiveFeed.Proofs.Log.Window

namespace LiveFeed.Log

variable {log : Log} {entries : List Entry} {lifetime now : Int} {nowValue : Value}

/-! Times in order -/

/-- Along a log in order all times are numbers, or none is. -/
theorem InOrder.numbers (h : InOrder entries) :
    (∀ e ∈ entries, e.recordedAt.number?.isSome = true) ∨
      ∀ e ∈ entries, e.recordedAt.number? = none := by
  induction entries with
  | nil => exact .inl nofun
  | cons first rest ih =>
      cases rest with
      | nil => cases hfirst : first.recordedAt.number? <;> simp [hfirst]
      | cons second rest =>
          rw [InOrder, List.isChain_cons_cons] at h
          have hsame := Value.isSome_number?_of_order h.1
          rcases ih h.2 with hall | hnone
          · exact .inl (List.forall_mem_cons.mpr ⟨hsame ▸ hall second (by simp), hall⟩)
          · rw [hnone second (by simp)] at hsame
            exact .inr (List.forall_mem_cons.mpr
              ⟨Option.isNone_iff_eq_none.mp (Option.isSome_eq_false_iff.mp hsame.symm), hnone⟩)

/-- Along a log in order whose times have places, what holds of places that do not decrease holds of
any two entries. -/
theorem InOrder.pairwise_of_places {R : Entry → Entry → Prop} (h : InOrder entries)
    (hplaced : ∀ e ∈ entries, e.recordedAt.HasPlace)
    (hR : ∀ a ∈ entries, ∀ b ∈ entries, ∀ s t, a.recordedAt.place? = some s →
      b.recordedAt.place? = some t → s ≤ t → R a b) :
    entries.Pairwise R := by
  have hplaces : (entries.map fun e => e.recordedAt.place?.getD 0).Pairwise (· ≤ ·) := by
    rw [← List.isChain_iff_pairwise, List.isChain_map]
    refine List.IsChain.imp_of_mem_imp ?_ h
    intro a b ha hb hnot
    obtain ⟨s, hs⟩ := hplaced a ha
    obtain ⟨t, ht⟩ := hplaced b hb
    rw [Value.order_less_of_places ht hs] at hnot
    simpa [hs, ht] using hnot
  refine List.Pairwise.imp_of_mem ?_ (List.pairwise_map.mp hplaces)
  intro a b ha hb hle
  obtain ⟨s, hs⟩ := hplaced a ha
  obtain ⟨t, ht⟩ := hplaced b hb
  rw [hs, ht, Option.getD_some, Option.getD_some] at hle
  exact hR a ha b hb s t hs ht hle

/-- None of the times is less than any before it. -/
theorem InOrder.pairwise (h : InOrder entries)
    (hplaced : ∀ e ∈ entries, e.recordedAt.HasPlace) :
    entries.Pairwise fun a b => Value.order .less b.recordedAt a.recordedAt = .ok false :=
  h.pairwise_of_places hplaced fun _ _ _ _ _ _ hs ht hle =>
    (Value.order_less_of_places ht hs).mpr hle

/-! Ages in order -/

/-- Among whole times in order the later entry is no older. -/
theorem InOrder.ages_of_whole (h : InOrder entries)
    (hwhole : ∀ e ∈ entries, ∃ n, e.recordedAt.number? = some (.whole n)) :
    entries.Pairwise fun a b => b.IsNoOlder now a := by
  refine h.pairwise_of_places (fun e he => ?_) ?_
  · obtain ⟨n, hn⟩ := hwhole e he
    exact ⟨_, Value.place?_of_whole hn⟩
  · intro a ha b hb s t hs ht hle
    obtain ⟨m, hm⟩ := hwhole a ha
    obtain ⟨n, hn⟩ := hwhole b hb
    cases hs.symm.trans (Value.place?_of_whole hm)
    cases ht.symm.trans (Value.place?_of_whole hn)
    have hmn : m ≤ n := by exact_mod_cast hle
    refine ⟨_, _, _, _, Entry.age?_of_whole now hm, Entry.age?_of_whole now hn, rfl, rfl, ?_⟩
    rw [EReal.coe_le_coe_iff, Int.cast_le]
    omega

/-- Among times in order whose ages are rounded alike the later entry is no older. -/
theorem InOrder.ages_of_left {b : ℝ} (h : InOrder entries)
    (hleft : ∀ e ∈ entries, e.IsLeftOf b now) :
    entries.Pairwise fun a b => b.IsNoOlder now a := by
  refine h.pairwise_of_places (fun e he => ?_) ?_
  · obtain ⟨s, -, -, hs, -⟩ := hleft e he
    exact ⟨s, hs⟩
  · intro a ha b hb s t hs ht hle
    exact (hleft a ha).isNoOlder (hleft b hb) hs ht hle

/-- All times are whole; or they are floats, and the current time fits a float; or they are of both
types, and the current time and the whole ages have at most 53 digits. -/
inductive IsMeasurable (now : Int) (entries : List Entry) : Prop where
  | whole (htimes : ∀ e ∈ entries, ∃ n, e.recordedAt.number? = some (.whole n))
  | float (hnow : (Binary64.ofInt? now).isSome = true)
      (htimes : ∀ e ∈ entries, ∃ x, e.recordedAt.number? = some (.float x) ∧
        Binary64.read x ≠ .nan)
  | short (hnow : now.natAbs < 2 ^ 53)
      (htimes : ∀ e ∈ entries, e.recordedAt.HasPlace ∧
        ∀ n, e.recordedAt.number? = some (.whole n) → (now - n).natAbs < 2 ^ 53)

/-- Every entry has an age, and the later one is no older. -/
theorem IsMeasurable.ages (h : IsMeasurable now entries) (hordered : InOrder entries) :
    (∀ e ∈ entries, ∃ age, e.age? now = some age) ∧
      entries.Pairwise fun a b => b.IsNoOlder now a := by
  have hofLeft (b : ℝ) (hleft : ∀ e ∈ entries, e.IsLeftOf b now) :
      (∀ e ∈ entries, ∃ age, e.age? now = some age) ∧
        entries.Pairwise fun a b => b.IsNoOlder now a := by
    refine ⟨fun e he => ?_, hordered.ages_of_left hleft⟩
    obtain ⟨-, age, -, -, hage, -⟩ := hleft e he
    exact ⟨age, hage⟩
  cases h with
  | whole htimes =>
      refine ⟨fun e he => ?_, hordered.ages_of_whole htimes⟩
      obtain ⟨n, hn⟩ := htimes e he
      exact ⟨_, Entry.age?_of_whole now hn⟩
  | float hnow htimes =>
      obtain ⟨y, hy⟩ := Option.isSome_iff_exists.mp hnow
      obtain ⟨b, hb⟩ := Binary64.exists_place_of_ofInt? hy
      refine hofLeft b fun e he => ?_
      obtain ⟨x, hx, hnan⟩ := htimes e he
      obtain ⟨s, hs⟩ := Binary64.exists_place hnan
      exact Entry.isLeftOf_of_float hy hb hx hs
  | short hnow htimes =>
      obtain ⟨y, hy, hb⟩ := Binary64.ofInt?_of_short hnow
      refine hofLeft now fun e he => ?_
      obtain ⟨⟨s, hs⟩, hshort⟩ := htimes e he
      obtain ⟨time, htime, hplace⟩ := Option.bind_eq_some_iff.mp hs
      cases time with
      | whole n => exact Entry.isLeftOf_of_short htime (hshort n htime)
      | float x => exact Entry.isLeftOf_of_float hy hb htime hplace

/-! The current time -/

/-- Where the float that is no number comes before an entry that has outlived its lifetime, liveness
does not last, and a read does not show the live entries. -/
theorem not_lasting_of_no_place {e f : Entry} {x : Float}
    (hx : e.recordedAt.number? = some (.float x)) (hnan : Binary64.place? x = none)
    (hexpired : f.isYoung lifetime now = false) (hbehind : [e, f].Sublist entries) :
    ¬ Lasting (Entry.isYoung lifetime now) entries := by
  intro hlasting
  have hpair := List.pairwise_pair.mp (hlasting.sublist hbehind)
  rw [hpair (Entry.isYoung_of_no_place lifetime now hx hnan)] at hexpired
  cases hexpired

/-- Among numbers only a float makes a read fail, at a time that is too large for a float. -/
theorem live_error_of_numbers (hlifetime : log.lifetime = .int lifetime)
    (hnumbers : ∀ e ∈ log.entries, e.recordedAt.number?.isSome = true)
    {fault : Fault} (h : log.live (.int now) = .error fault) :
    fault = .value .numberTooLarge ∧ Binary64.ofInt? now = none ∧
      ∃ e ∈ log.entries, ∃ x, e.recordedAt.number? = some (.float x) := by
  obtain ⟨e, he, cause, hcause, rfl⟩ := exists_of_boundary_error (live_eq_error_iff.mp h)
  cases hage : e.age? now with
  | some age =>
      rw [hlifetime, Entry.isLive_of_age lifetime hage] at hcause
      cases hcause
  | none =>
      rw [Entry.isLive_of_no_age log.lifetime (hnumbers e he) hage] at hcause
      cases hcause
      obtain ⟨hlarge, hfloat⟩ := Entry.float_of_no_age (hnumbers e he) hage
      exact ⟨rfl, hlarge, e, he, hfloat⟩

section

variable [Limits]

/-- A current time that is whole is accepted, or is older than the newest of the numbers. -/
theorem checkTime_of_numbers
    (hnumbers : ∀ e ∈ log.entries, e.recordedAt.number?.isSome = true) :
    log.checkTime (.int now) = .ok () ∨
      ∃ latest, log.latest? = some latest ∧
        log.checkTime (.int now) = .error (.ofStale (.int now) latest) := by
  rw [Log.checkTime, Log.latest?]
  cases hlast : log.entries.getLast? with
  | none => exact .inl rfl
  | some newest =>
      obtain ⟨n, hn⟩ := Option.isSome_iff_exists.mp (hnumbers newest (List.mem_of_getLast? hlast))
      have hnull : newest.recordedAt ≠ .null := by
        intro hnull
        rw [hnull] at hn
        cases hn
      obtain ⟨later, horder⟩ : ∃ later, Value.order .greater newest.recordedAt (.int now) =
          .ok later := ⟨_, Value.order_of_numbers _ hn rfl⟩
      simp only [Option.map_some, horder]
      cases later <;> simp

/-- A newest time that is no number cannot be compared, unless it is null, which counts as none. -/
theorem checkTime_of_no_numbers (now : Int)
    (hnone : ∀ e ∈ log.entries, e.recordedAt.number? = none) :
    log.checkTime (.int now) = .ok () ∨
      ∃ cause, log.checkTime (.int now) = .error (.value cause) := by
  rw [Log.checkTime, Log.latest?]
  cases hlast : log.entries.getLast? with
  | none => exact .inl rfl
  | some newest =>
      have hn := hnone newest (List.mem_of_getLast? hlast)
      rw [Option.map_some]
      split
      · exact .inl rfl
      · exact .inl rfl
      · rename_i latest hlatest
        cases hlatest
        cases horder : Value.order .greater newest.recordedAt (.int now) with
        | error cause => exact .inr ⟨cause, rfl⟩
        | ok later =>
            have hsame := Value.isSome_number?_of_order horder
            rw [hn] at hsame
            cases hsame

/-! What a log answers -/

/-- A refusal because the newest entry is later than the time: as stale, or for want of words if one
of the two times cannot be written. -/
def IsLate (log : Log) (now : Value) (fault : Fault) : Prop :=
  ∃ latest, log.latest? = some latest ∧ fault = .ofStale now latest

/-- Nothing fails at a time but what is refused because the newest entry is later, and a read shows
what lies behind a boundary: just the live entries, if and only if a live entry stays live to the
end. -/
structure Answers (log : Log) (now : Value) (live : Entry → Bool) : Prop where
  judged : log.Judged now live
  shown : ∃ index, IsBoundary live log.entries index ∧
    log.live now = .ok ((log.entries.drop index).map Entry.payload) ∧
    (log.entries.drop index = log.entries.filter live ↔ Lasting live log.entries)
  evict : ∀ fault, log.evict now = .error fault → log.IsLate now fault
  push : ∀ container octets fault, log.push now (.bytes container octets) = .error fault →
    log.IsLate now fault

theorem Judged.answers {live : Entry → Bool} (h : log.Judged nowValue live)
    (htime : log.checkTime nowValue = .ok () ∨
      ∃ latest, log.latest? = some latest ∧
        log.checkTime nowValue = .error (.ofStale nowValue latest)) :
    log.Answers nowValue live := by
  obtain ⟨index, hfound, hbound⟩ := h.exists_boundary
  have hevict (fault : Fault) (hfault : log.evict nowValue = .error fault) :
      log.IsLate nowValue fault := by
    rcases evict_eq_error hfault with hlate | hlost
    · rcases htime with hok | ⟨latest, hlatest, hlater⟩
      · rw [hok] at hlate
        cases hlate
      · rw [hlater] at hlate
        cases hlate
        exact ⟨latest, hlatest, rfl⟩
    · rw [hfound] at hlost
      cases hlost
  refine ⟨h, ⟨index, hbound, ?_, h.drop_eq_filter_iff hfound⟩, hevict, ?_⟩
  · rw [Log.live, hfound]
    rfl
  · intro container octets fault hfault
    exact hevict fault (push_eq_error_iff.mp hfault)

/-- Where every entry has an age, ages decide. -/
theorem answers_of_ages (hlifetime : log.lifetime = .int lifetime)
    (hages : ∀ e ∈ log.entries, ∃ age, e.age? now = some age) :
    log.Answers (.int now) (Entry.isYoung lifetime now) := by
  have hjudged : log.Judged (.int now) (Entry.isYoung lifetime now) := by
    intro e he
    obtain ⟨age, hage⟩ := hages e he
    rw [hlifetime, Entry.isLive_of_age lifetime hage]
  refine hjudged.answers (checkTime_of_numbers fun e he => ?_)
  obtain ⟨age, hage⟩ := hages e he
  exact Entry.isSome_number?_of_age hage

/-- At a time a log shows just the payloads of its live entries, and whatever evicts or records
succeeds, unless the newest entry is later. -/
structure IsUsable (log : Log) (now : Value) : Prop where
  live : ∃ live, log.Judged now live ∧
    log.live now = .ok ((log.entries.filter live).map Entry.payload)
  evict : ∀ fault, log.evict now = .error fault → log.IsLate now fault
  push : ∀ container octets fault, log.push now (.bytes container octets) = .error fault →
    log.IsLate now fault

theorem IsMeasurable.isUsable (h : IsMeasurable now log.entries)
    (hlifetime : log.lifetime = .int lifetime) (hordered : InOrder log.entries) :
    log.IsUsable (.int now) := by
  obtain ⟨hages, hyounger⟩ := h.ages hordered
  have hanswers := answers_of_ages hlifetime hages
  have hlasting : Lasting (Entry.isYoung lifetime now) log.entries :=
    hyounger.imp fun hnoOlder hyoung => hnoOlder.isYoung hyoung
  exact ⟨⟨_, hanswers.judged, hanswers.judged.live_of_lasting hlasting⟩, hanswers.evict,
    hanswers.push⟩

/-- Everything fails that is asked of a log without numbers. -/
structure IsUseless (log : Log) (now : Value) : Prop where
  live : ∃ cause, log.live now = .error (.value cause)
  evict : ∃ cause, log.evict now = .error (.value cause)
  push : ∀ container octets, ∃ cause,
    log.push now (.bytes container octets) = .error (.value cause)

theorem isUseless_of_no_numbers (hne : log.entries ≠ [])
    (hnone : ∀ e ∈ log.entries, e.recordedAt.number? = none) : log.IsUseless (.int now) := by
  obtain ⟨cause, hlost⟩ := boundary_error hne fun e he =>
    ⟨_, Entry.isLive_of_no_number log.lifetime now (hnone e he)⟩
  have hevict : ∃ cause, log.evict (.int now) = .error (.value cause) := by
    rw [evict]
    rcases checkTime_of_no_numbers now hnone with hok | ⟨other, hfault⟩
    · exact ⟨cause, by rw [hok, hlost]; rfl⟩
    · exact ⟨other, by rw [hfault]; rfl⟩
  refine ⟨⟨cause, live_eq_error_iff.mpr hlost⟩, hevict, ?_⟩
  intro container octets
  obtain ⟨cause, hfault⟩ := hevict
  exact ⟨cause, push_eq_error_iff.mpr hfault⟩

/-- What a log is good for that is rebuilt from any snapshot, under a whole lifetime.  If all its
times are numbers, and none is the float that is no number, no time is less than any before it; and
if they are measurable at a time, the log is usable then.  Wherever each entry has an age, nothing
fails that should not, and a read shows what lies behind a boundary; these are not the live entries
where the float that is no number comes before an entry that has outlived its lifetime.  A read of
numbers fails only at a time that is too large for a float.  If one of the times is no number, none
is, and everything fails. -/
theorem rebuilt_log_usable {snapshot : Value} {lifetime : Int} {log : Log}
    (hrebuilt : Snapshot.decode snapshot (some (.int lifetime)) = .ok log) (now : Int) :
    log.lifetime = .int lifetime ∧
    ((∀ e ∈ log.entries, e.recordedAt.HasPlace) →
      log.entries.Pairwise fun a b => Value.order .less b.recordedAt a.recordedAt = .ok false) ∧
    (IsMeasurable now log.entries → log.IsUsable (.int now)) ∧
    ((∀ e ∈ log.entries, ∃ age, e.age? now = some age) →
      log.Answers (.int now) (Entry.isYoung lifetime now)) ∧
    (∀ e f x, e.recordedAt.number? = some (.float x) → Binary64.place? x = none →
      f.isYoung lifetime now = false → [e, f].Sublist log.entries →
        ¬ Lasting (Entry.isYoung lifetime now) log.entries) ∧
    ((∀ e ∈ log.entries, e.recordedAt.number?.isSome = true) →
      ∀ fault, log.live (.int now) = .error fault →
        fault = .value .numberTooLarge ∧ Binary64.ofInt? now = none ∧
          ∃ e ∈ log.entries, ∃ x, e.recordedAt.number? = some (.float x)) ∧
    ((∃ e ∈ log.entries, e.recordedAt.number? = none) → log.IsUseless (.int now)) := by
  have htells := Snapshot.decode_eq_ok_iff.mp hrebuilt
  have hlifetime : log.lifetime = .int lifetime := (Except.ok.inj htells.lifetime_eq).symm
  have hordered := checkOrder_eq_ok_iff.mp htells.ordered
  refine ⟨hlifetime, hordered.pairwise, fun h => h.isUsable hlifetime hordered,
    answers_of_ages hlifetime, fun _ _ _ => not_lasting_of_no_place,
    fun hnumbers fault => live_error_of_numbers hlifetime hnumbers, ?_⟩
  rintro ⟨e, he, hnone⟩
  rcases hordered.numbers with hall | hnone'
  · have hsome := hall e he
    rw [hnone] at hsome
    cases hsome
  · exact isUseless_of_no_numbers (List.ne_nil_of_mem he) hnone'

end

open scoped Limits

/-- A log of times of both types, the last of them infinite: only the first entry has outlived its
lifetime, and no whole time is late enough for the last one. -/
theorem rebuilt_log_usable_of_infinity :
    let infinity : Value := .float (Binary64.infinity false)
    let snapshot : Value := .object [("entries", .list [
      .object [("payload", .str "61"), ("recorded_at", .bool true)],
      .object [("payload", .str "62"), ("recorded_at", .float (Binary64.ofRatio false 15 2))],
      .object [("payload", .str "63"), ("recorded_at", infinity)]])]
    let log : Log := ⟨.int 10, [⟨[0x61], .bool true⟩,
      ⟨[0x62], .float (Binary64.ofRatio false 15 2)⟩, ⟨[0x63], infinity⟩]⟩
    Snapshot.decode snapshot (some (.int 10)) = .ok log ∧
      log.live (.int 11) = .ok [[0x62], [0x63]] ∧
      log.evict (.int 11) = .error (.stale (.int 11) infinity) := by
  intro infinity snapshot log
  have hrebuilt : Snapshot.decode snapshot (some (.int 10)) = .ok log := by
    refine Snapshot.decode_eq_ok_iff.mpr
      ⟨rfl, ⟨_, _, rfl, rfl, .cons ?_ (.cons ?_ (.cons ?_ .nil))⟩, rfl⟩
    all_goals exact ⟨_, rfl, Hex.decode_eq_ok_iff.mp (by decide +kernel), rfl⟩
  obtain ⟨-, -, husable, -⟩ := rebuilt_log_usable hrebuilt 11
  have hmeasurable : IsMeasurable 11 log.entries := by
    have hfloat {x : Float} (hx : Binary64.read x ≠ .nan) : (Value.float x).HasPlace ∧
        ∀ n, (Value.float x).number? = some (.whole n) → ((11 : Int) - n).natAbs < 2 ^ 53 :=
      ⟨Binary64.exists_place hx, nofun⟩
    refine .short (by decide) (List.forall_mem_cons.mpr ⟨⟨⟨_, rfl⟩, ?_⟩,
      List.forall_mem_cons.mpr ⟨hfloat (by decide +kernel),
        List.forall_mem_singleton.mpr (hfloat (by decide +kernel))⟩⟩)
    rintro n hn
    cases hn
    decide
  obtain ⟨⟨live, hjudged, hlive⟩, -, -⟩ := husable hmeasurable
  have hlives {e : Entry} {shown : Bool} (he : e ∈ log.entries)
      (h : e.isLive (.int 10) (.int 11) = .ok shown) : live e = shown :=
    Except.ok.inj ((hjudged e he).symm.trans h)
  have hfirst : live ⟨[0x61], .bool true⟩ = false := hlives (by simp [log]) rfl
  have hsecond : live ⟨[0x62], .float (Binary64.ofRatio false 15 2)⟩ = true :=
    hlives (by simp [log]) rfl
  have hthird : live ⟨[0x63], infinity⟩ = true := hlives (by simp [log]) rfl
  rw [List.filter_cons_of_neg (by rw [hfirst]; exact Bool.false_ne_true),
    List.filter_cons_of_pos hsecond, List.filter_cons_of_pos hthird] at hlive
  have hwords : Fault.ofStale (.int 11) infinity = .stale (.int 11) infinity := by
    have hfit : Digits.fit 11 = true := by decide +kernel
    simp only [Fault.ofStale, infinity, Value.wordless?_int, Value.wordless?_float, hfit,
      ↓reduceIte, Option.or_none]
  refine ⟨hrebuilt, hlive, ?_⟩
  rw [← hwords]
  rfl

end LiveFeed.Log
