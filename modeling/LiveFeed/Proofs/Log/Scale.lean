/-
Logs whose times lie on a scale.  There are two: whole numbers, with a whole lifetime, and points in
time, with a span for lifetime.  On either one times and lengths have a place that order and
difference go by, so along a log in order liveness lasts, and reading, eviction and a plain filter
agree.
-/
import LiveFeed.Proofs.Log.Window
import LiveFeed.Proofs.Value.Order
import Mathlib.Data.List.Induction

namespace LiveFeed

/-- The two scales: whole numbers that are counted, and points in time. -/
inductive Scale where
  | counted
  | dated
deriving Repr, DecidableEq

namespace Scale

/-- The place of a time on a scale, if it lies on it; truth values count as zero and one. -/
def place? : Scale → Value → Option Int
  | .counted, .bool b => some (if b then 1 else 0)
  | .counted, .int n => some n
  | .dated, .instant t => some t.micros
  | _, _ => none

/-- The length of a lifetime on a scale: a whole number among numbers, a span among points. -/
def length? : Scale → Value → Option Int
  | .counted, v => counted.place? v
  | .dated, .span s => some s.micros
  | .dated, _ => none

/-- Whether a time on a scale can be written: a whole number of too many digits cannot. -/
def isWritten : Scale → Int → Bool
  | .counted, n => Digits.fit n
  | .dated, _ => true

/-- Whether the age of an entry has reached the lifetime. -/
def hasExpired (scale : Scale) (lifetime now : Int) (e : Entry) : Bool :=
  (scale.place? e.recordedAt).any fun time => lifetime ≤ now - time

/-- Whether a time is later than another one. -/
def isLater (scale : Scale) (now : Int) (v : Value) : Bool :=
  (scale.place? v).any fun time => now < time

variable {scale : Scale} {v w : Value} {m n : Int}

theorem number?_of_counted (h : counted.place? v = some m) : v.number? = some (.whole m) := by
  cases v <;> simp_all [place?, Value.number?]

theorem instant_of_dated (h : dated.place? v = some m) : ∃ t, v = .instant t ∧ m = t.micros := by
  cases v <;> simp_all [place?]

theorem compare_natCast (s t : Nat) : compare (s : Int) t = compare s t := by
  simp only [compare, compareOfLessAndEq, Int.ofNat_lt, Int.natCast_inj]

/-- Two times on a scale compare as their places do. -/
theorem order_place (op : Value.Comparison) (hv : scale.place? v = some m)
    (hw : scale.place? w = some n) :
    Value.order op v w = .ok (op.holds (some (compare m n))) := by
  cases scale with
  | counted => exact Value.order_of_numbers op (number?_of_counted hv) (number?_of_counted hw)
  | dated =>
      obtain ⟨s, rfl, rfl⟩ := instant_of_dated hv
      obtain ⟨t, rfl, rfl⟩ := instant_of_dated hw
      simp [Value.order, Value.compareScalar?, compare_natCast]

/-- Two lengths on a scale compare as numbers do. -/
theorem order_length (op : Value.Comparison) (hv : scale.length? v = some m)
    (hw : scale.length? w = some n) :
    Value.order op v w = .ok (op.holds (some (compare m n))) := by
  cases scale with
  | counted => exact order_place op hv hw
  | dated =>
      cases v <;> cases w <;> simp_all [length?, Value.order, Value.compareScalar?]

/-- The difference of two times on a scale is a length on it. -/
theorem subtract_place (hv : scale.place? v = some m) (hw : scale.place? w = some n) :
    ∃ age, v.subtract w = .ok age ∧ scale.length? age = some (m - n) := by
  cases scale with
  | counted =>
      refine ⟨.int (m - n), ?_, rfl⟩
      cases v <;> cases w <;>
        simp_all [place?, Value.subtract, Value.number?, Value.subtractNumbers, Number.combine?,
          Value.ofNumber]
  | dated =>
      obtain ⟨s, rfl, rfl⟩ := instant_of_dated hv
      obtain ⟨t, rfl, rfl⟩ := instant_of_dated hw
      exact ⟨_, rfl, rfl⟩

theorem wordless?_of_place [Limits] (h : scale.place? v = some m) :
    v.wordless? = if scale.isWritten m then none else some .tooLong := by
  cases scale with
  | counted =>
      cases v with
      | bool b =>
          have hfit : Digits.fit m = true := by
            cases h
            cases b <;> decide +kernel
          simp [isWritten, hfit]
      | int n =>
          cases h
          exact Value.wordless?_int m
      | _ => cases h
  | dated =>
      obtain ⟨t, rfl, -⟩ := instant_of_dated h
      simp [isWritten]

/-- A time that is older than the newest one is refused as stale if both can be written. -/
theorem ofStale_of_place [Limits] (hv : scale.place? v = some m) (hw : scale.place? w = some n) :
    Log.Fault.ofStale v w =
      if scale.isWritten m && scale.isWritten n then .stale v w else .wordless .tooLong := by
  rw [Log.Fault.ofStale, wordless?_of_place hv, wordless?_of_place hw]
  cases scale.isWritten m <;> cases scale.isWritten n <;> rfl

/-- The lifetime and all times of a log lie on a scale. -/
structure Measures (scale : Scale) (log : Log) (lifetime : Int) : Prop where
  lifetime_eq : scale.length? log.lifetime = some lifetime
  times : ∀ e ∈ log.entries, ∃ time, scale.place? e.recordedAt = some time

section

variable {log : Log} {lifetime now : Int} {nowValue : Value}

theorem Measures.judged (h : scale.Measures log lifetime)
    (hnow : scale.place? nowValue = some now) :
    log.Judged nowValue fun e => !scale.hasExpired lifetime now e := by
  intro e he
  obtain ⟨time, htime⟩ := h.times e he
  obtain ⟨age, hage, hlength⟩ := subtract_place hnow htime
  rw [Entry.isLive, hage]
  simp only [bind, Except.bind, order_length _ hlength h.lifetime_eq,
    Value.Comparison.holds_atLeast, hasExpired, htime, Option.any_some, pure, Except.pure]

/-- Along a log in order the places of the times never decrease. -/
theorem Measures.pairwise (h : scale.Measures log lifetime) (hordered : Log.InOrder log.entries) :
    log.entries.Pairwise fun a b =>
      (scale.place? a.recordedAt).getD 0 ≤ (scale.place? b.recordedAt).getD 0 := by
  rw [← List.pairwise_map, ← List.isChain_iff_pairwise, List.isChain_map]
  refine List.IsChain.imp_of_mem_imp ?_ hordered
  intro a b ha hb hnot
  obtain ⟨s, hs⟩ := h.times a ha
  obtain ⟨t, ht⟩ := h.times b hb
  rw [order_place _ ht hs, Value.Comparison.holds_less, Except.ok.injEq, decide_eq_false_iff_not]
    at hnot
  simpa [hs, ht] using hnot

theorem Measures.lasting (h : scale.Measures log lifetime) (hordered : Log.InOrder log.entries) :
    Lasting (fun e => !scale.hasExpired lifetime now e) log.entries := by
  refine List.Pairwise.imp_of_mem ?_ (h.pairwise hordered)
  intro a b ha hb hle hlive
  obtain ⟨s, hs⟩ := h.times a ha
  obtain ⟨t, ht⟩ := h.times b hb
  simp only [hasExpired, hs, ht, Option.any_some, Option.getD_some, Bool.not_eq_eq_eq_not,
    Bool.not_true, decide_eq_false_iff_not] at hle hlive ⊢
  omega

/-- A reader sees the payloads of the entries that have not expired. -/
theorem Measures.live (h : scale.Measures log lifetime) (hordered : Log.InOrder log.entries)
    (hnow : scale.place? nowValue = some now) :
    log.live nowValue =
      .ok ((log.entries.filter fun e => !scale.hasExpired lifetime now e).map Entry.payload) :=
  (h.judged hnow).live_of_lasting (h.lasting hordered)

variable [Limits]

theorem Measures.checkTime (h : scale.Measures log lifetime)
    (hnow : scale.place? nowValue = some now) :
    log.checkTime nowValue =
      match log.latest?.filter (scale.isLater now) with
      | some latest => .error (.ofStale nowValue latest)
      | none => .ok () := by
  rw [Log.checkTime, Log.latest?]
  cases hlast : log.entries.getLast? with
  | none => rfl
  | some newest =>
      obtain ⟨time, htime⟩ := h.times newest (List.mem_of_getLast? hlast)
      have hnull : newest.recordedAt ≠ .null := by
        intro hnull
        rw [hnull] at htime
        cases scale <;> cases htime
      have horder := order_place .greater htime hnow
      rw [Value.Comparison.holds_greater] at horder
      simp only [Option.map_some, Option.filter_some, isLater, htime, Option.any_some,
        decide_eq_true_eq]
      by_cases hlater : now < time
      · simp [hlater, horder]
      · simp [hlater, horder]

/-- Eviction leaves the entries that have not expired, unless the newest one is later than the
time. -/
theorem Measures.evict (h : scale.Measures log lifetime) (hordered : Log.InOrder log.entries)
    (hnow : scale.place? nowValue = some now) :
    log.evict nowValue =
      match log.latest?.filter (scale.isLater now) with
      | some latest => .error (.ofStale nowValue latest)
      | none => .ok ((log.entries.filter (scale.hasExpired lifetime now)).length,
          log.filtered fun e => !scale.hasExpired lifetime now e) := by
  rw [(h.judged hnow).evict_of_lasting (h.lasting hordered), h.checkTime hnow]
  simp only [Bool.not_not]
  cases log.latest?.filter (scale.isLater now) <;> rfl

end

/-- The newest of some entries has a time that is later than the given one; its place is named. -/
def IsAhead (scale : Scale) (now : Int) (entries : List Entry) (latest : Value) (time : Int) :
    Prop :=
  ∃ newest, entries.getLast? = some newest ∧ newest.recordedAt = latest ∧
    scale.place? latest = some time ∧ now < time

theorem latest?_filter_eq_some_iff {log : Log} {now : Int} {latest : Value} :
    log.latest?.filter (scale.isLater now) = some latest ↔
      ∃ time, scale.IsAhead now log.entries latest time := by
  simp only [Log.latest?, IsAhead, Option.filter_eq_some_iff, Option.map_eq_some_iff, isLater,
    Option.any_eq_true, decide_eq_true_eq]
  constructor
  · rintro ⟨⟨newest, hlast, rfl⟩, time, htime, hlater⟩
    exact ⟨time, newest, hlast, rfl, htime, hlater⟩
  · rintro ⟨time, newest, hlast, rfl, htime, hlater⟩
    exact ⟨⟨newest, hlast, rfl⟩, time, htime, hlater⟩

section

variable [Limits]

/-- Reads, evictions and the plain filter agree.  Of a log that is accepted, whose times lie on a
scale and whose lifetime is a length on it, of either sign, every time on the scale shows the
entries whose age has not reached the lifetime.  Eviction leaves just them and counts the others,
and is refused if and only if the newest entry is later than the time: as stale if both times can be
written, and for want of words if one of them has too many digits.  A push of anything but octets is
refused whatever the log and the time are; a push of octets is refused just as eviction is, and
otherwise records them behind what eviction leaves. -/
theorem log_operations_filter (scale : Scale) {lifetimeValue nowValue : Value}
    {entries : List Entry} {log : Log} {lifetime now : Int}
    (haccepted : Log.ofEntries? lifetimeValue entries = .ok log)
    (hlifetime : scale.length? lifetimeValue = some lifetime)
    (htimes : ∀ e ∈ entries, ∃ time, scale.place? e.recordedAt = some time)
    (hnow : scale.place? nowValue = some now) :
    let shown := entries.filter fun e => !scale.hasExpired lifetime now e
    let others := entries.filter (scale.hasExpired lifetime now)
    (∀ e ∈ entries, e.isLive lifetimeValue nowValue = .ok (!scale.hasExpired lifetime now e)) ∧
    log.live nowValue = .ok (shown.map Entry.payload) ∧
    (∀ fault, log.evict nowValue = .error fault ↔
      ∃ latest time, scale.IsAhead now entries latest time ∧
        fault = if scale.isWritten now && scale.isWritten time then .stale nowValue latest
          else .wordless .tooLong) ∧
    (∀ count kept, log.evict nowValue = .ok (count, kept) ↔
      (¬ ∃ latest time, scale.IsAhead now entries latest time) ∧
        count = others.length ∧ kept = ⟨lifetimeValue, shown⟩) ∧
    (∀ (anyLog : Log) (anyTime payload : Value),
      (∀ container octets, payload ≠ .bytes container octets) →
        anyLog.push anyTime payload = .error (.notOctets payload.kind)) ∧
    (∀ container octets fault, log.push nowValue (.bytes container octets) = .error fault ↔
      log.evict nowValue = .error fault) ∧
    (∀ container octets next, log.push nowValue (.bytes container octets) = .ok next ↔
      ∃ count kept, log.evict nowValue = .ok (count, kept) ∧
        next = { kept with entries := kept.entries ++ [⟨octets, nowValue⟩] }) := by
  intro shown others
  obtain ⟨_, hchecked, hlog⟩ := bind_eq_ok_iff.mp haccepted
  cases hlog
  have hordered := Log.checkOrder_eq_ok_iff.mp hchecked
  have hmeasures : scale.Measures ⟨lifetimeValue, entries⟩ lifetime := ⟨hlifetime, htimes⟩
  have hahead {latest : Value} :
      (Log.latest? ⟨lifetimeValue, entries⟩).filter (scale.isLater now) = some latest ↔
        ∃ time, scale.IsAhead now entries latest time := latest?_filter_eq_some_iff
  have hwords {latest : Value} {time : Int} (h : scale.IsAhead now entries latest time) :
      Log.Fault.ofStale nowValue latest =
        if scale.isWritten now && scale.isWritten time then .stale nowValue latest
        else .wordless .tooLong := by
    obtain ⟨_, -, -, htime, -⟩ := h
    exact ofStale_of_place hnow htime
  have hevict := hmeasures.evict hordered hnow
  generalize Option.filter (scale.isLater now) _ = ahead? at hahead hevict
  refine ⟨hmeasures.judged hnow, hmeasures.live hordered hnow, ?_, ?_,
    fun anyLog anyTime _ => anyLog.push_of_no_octets anyTime,
    fun _ _ _ => Log.push_eq_error_iff, fun _ _ _ => Log.push_eq_ok_iff⟩
  · intro fault
    rw [hevict]
    constructor
    · intro h
      cases ahead? with
      | none => cases h
      | some latest =>
          obtain ⟨time, hlatest⟩ := hahead.mp rfl
          cases h
          exact ⟨latest, time, hlatest, hwords hlatest⟩
    · rintro ⟨latest, time, hlatest, rfl⟩
      rw [hahead.mpr ⟨time, hlatest⟩, ← hwords hlatest]
  · intro count kept
    rw [hevict]
    simp only [← hahead]
    cases ahead? <;> simp [eq_comm, Log.filtered, shown, others]

end

open scoped Limits

/-- Two entries of one day have reached the lifetime together and go together; a day earlier, before
the newest entry, all are shown and none can go. -/
theorem log_operations_filter_of_days :
    let day (n : Nat) : Value := .instant ⟨n * microsPerDay⟩
    let log : Log := ⟨.span ⟨3 * microsPerDay⟩,
      [⟨[1], day 5⟩, ⟨[2], day 5⟩, ⟨[3], day 8⟩]⟩
    Log.ofEntries? log.lifetime log.entries = .ok log ∧
      log.live (day 8) = .ok [[3]] ∧
      log.evict (day 8) = .ok (2, ⟨log.lifetime, [⟨[3], day 8⟩]⟩) ∧
      log.live (day 7) = .ok [[1], [2], [3]] ∧
      log.evict (day 7) = .error (.stale (day 7) (day 8)) := by
  intro day log
  have haccepted : Log.ofEntries? log.lifetime log.entries = .ok log := rfl
  have htimes : ∀ e ∈ log.entries, ∃ time, dated.place? e.recordedAt = some time := by
    simp [log, day, place?]
  have hplace (n : Nat) : dated.place? (day n) = some (n * microsPerDay : Nat) := rfl
  obtain ⟨-, hlive, -, hevict, -⟩ :=
    log_operations_filter dated haccepted rfl htimes (hplace 8)
  obtain ⟨-, hlive', hstale, -⟩ :=
    log_operations_filter dated haccepted rfl htimes (hplace 7)
  refine ⟨haccepted, hlive, (hevict _ _).mpr ⟨?_, rfl, rfl⟩, hlive',
    (hstale _).mpr ⟨_, _, ⟨_, rfl, rfl, rfl, ?_⟩, rfl⟩⟩
  · rintro ⟨latest, time, newest, hlast, rfl, htime, hlater⟩
    cases hlast
    cases htime
    contradiction
  · decide

/-- A log whose newest entry is later than a time of too many digits refuses eviction at that time,
but not as stale. -/
theorem eviction_fails_without_words :
    let log : Log := ⟨.int 10, [⟨[1], .int 0⟩]⟩
    let now : Value := .int (-Nat.pow 10 4300)
    Log.ofEntries? log.lifetime log.entries = .ok log ∧
      counted.IsAhead (-Nat.pow 10 4300) log.entries (.int 0) 0 ∧
      log.evict now ≠ .error (.stale now (.int 0)) ∧
      log.push now (.bytes .fixed [2]) ≠ .error (.stale now (.int 0)) := by
  intro log now
  have hahead : counted.IsAhead (-Nat.pow 10 4300) log.entries (.int 0) 0 :=
    ⟨_, rfl, rfl, rfl, by decide +kernel⟩
  have hunwritten : counted.isWritten (-Nat.pow 10 4300) = false := by decide +kernel
  have hmeasures : counted.Measures log 10 := ⟨rfl, by simp [log, place?]⟩
  have hordered : Log.InOrder log.entries := .singleton _
  have hevict : log.evict now = .error (.wordless .tooLong) := by
    rw [hmeasures.evict hordered (rfl : counted.place? now = _),
      latest?_filter_eq_some_iff.mpr ⟨0, hahead⟩]
    simp only [ofStale_of_place (rfl : counted.place? now = _) (rfl : counted.place? (.int 0) = _),
      hunwritten, Bool.false_and, Bool.false_eq_true, ↓reduceIte]
  refine ⟨rfl, hahead, ?_, ?_⟩
  · rw [hevict]
    exact nofun
  · rw [Log.push_eq_error_iff.mpr hevict]
    exact nofun

end Scale
end LiveFeed
