/-
The ages of entries at a whole time.  An entry whose time is a number has an age, unless it is a
float and the current time is too large for one; the age is exact if both are whole, and rounded
otherwise.  What has no age cannot be judged.
-/
import LiveFeed.Log.Basic
import LiveFeed.Proofs.Number.Whole
import LiveFeed.Proofs.Value.Order

namespace LiveFeed

namespace Value

/-- The place of a value among the numbers; what is not a number has none. -/
noncomputable def place? (v : Value) : Option EReal := v.number?.bind Number.place?

/-- A value is a number, and not the float that is no number. -/
def HasPlace (v : Value) : Prop := ∃ place, v.place? = some place

theorem number?_ofNumber (n : Number) : (ofNumber n).number? = some n := by
  cases n <;> rfl

theorem place?_of_whole {v : Value} {n : Int} (h : v.number? = some (.whole n)) :
    v.place? = some ((n : ℝ) : EReal) := by
  rw [place?, h]
  rfl

section

variable {α : Type} [LinearOrder α] {a b : α}

theorem Comparison.holds_less_cmp_iff : Comparison.less.holds (some (cmp a b)) = true ↔ a < b := by
  rw [← cmp_eq_lt_iff]
  cases cmp a b <;> simp [Comparison.holds]

theorem Comparison.holds_atLeast_cmp_iff :
    Comparison.atLeast.holds (some (cmp a b)) = true ↔ b ≤ a := by
  rw [← not_lt, ← cmp_eq_lt_iff]
  cases cmp a b <;> simp [Comparison.holds]

end

/-- Of two numbers one is not less than the other, if its place is not. -/
theorem order_less_of_places {v w : Value} {s t : EReal} (hv : v.place? = some s)
    (hw : w.place? = some t) : order .less v w = .ok false ↔ t ≤ s := by
  obtain ⟨m, hm, hs⟩ := Option.bind_eq_some_iff.mp hv
  obtain ⟨n, hn, ht⟩ := Option.bind_eq_some_iff.mp hw
  rw [order_of_numbers _ hm hn, Number.compare?_of_places hs ht, Except.ok.injEq,
    ← Bool.not_eq_true, Comparison.holds_less_cmp_iff, not_lt]

end Value

/-- How old something is that was recorded at a number, unless a whole time would have to be a float
and is too large. -/
def Number.age? (now : Int) (time : Number) : Option Number :=
  (Number.whole now).combine? (· - ·) (· - ·) time

namespace Entry

/-- How old an entry is, if its time is a number. -/
def age? (now : Int) (e : Entry) : Option Number := e.recordedAt.number?.bind (·.age? now)

/-- The age of an entry has not reached the lifetime. -/
def isYoung (lifetime now : Int) (e : Entry) : Bool :=
  (e.age? now).all fun age => !Value.Comparison.atLeast.holds (age.compare? (.whole lifetime))

variable {e : Entry} {now : Int}

theorem age?_of_whole {n : Int} (now : Int) (hn : e.recordedAt.number? = some (.whole n)) :
    e.age? now = some (.whole (now - n)) := by
  rw [age?, hn]
  rfl

theorem age?_of_float {x y : Float} (hnow : Binary64.ofInt? now = some y)
    (hx : e.recordedAt.number? = some (.float x)) : e.age? now = some (.float (y - x)) := by
  simp [age?, hx, Number.age?, Number.combine?, Number.toFloat?, hnow]

theorem isSome_number?_of_age {age : Number} (h : e.age? now = some age) :
    e.recordedAt.number?.isSome = true := by
  obtain ⟨time, htime, -⟩ := Option.bind_eq_some_iff.mp h
  rw [htime]
  rfl

/-- Only a float has no age, at a time that is too large for a float. -/
theorem float_of_no_age (hnumber : e.recordedAt.number?.isSome = true) (h : e.age? now = none) :
    Binary64.ofInt? now = none ∧ ∃ x, e.recordedAt.number? = some (.float x) := by
  obtain ⟨time, htime⟩ := Option.isSome_iff_exists.mp hnumber
  cases time with
  | whole n =>
      rw [age?_of_whole now htime] at h
      cases h
  | float x =>
      refine ⟨?_, x, htime⟩
      cases hnow : Binary64.ofInt? now with
      | none => rfl
      | some y =>
          rw [age?_of_float hnow htime] at h
          cases h

/-! Judging by age -/

/-- The age of an entry decides, if it has one. -/
theorem isLive_of_age {age : Number} (lifetime : Int) (h : e.age? now = some age) :
    e.isLive (.int lifetime) (.int now) = .ok (e.isYoung lifetime now) := by
  obtain ⟨time, htime, hage⟩ := Option.bind_eq_some_iff.mp h
  have hnow : (Value.int now).number? = some (.whole now) := rfl
  have hlifetime : (Value.int lifetime).number? = some (.whole lifetime) := rfl
  rw [Number.age?] at hage
  rw [isLive, Value.subtract_of_numbers hnow htime, Value.subtractNumbers, hage]
  simp only [bind, Except.bind, pure, Except.pure, isYoung, h, Option.all_some,
    Value.order_of_numbers _ (Value.number?_ofNumber age) hlifetime]

/-- A number of which there is no age cannot be taken from the current time. -/
theorem isLive_of_no_age (lifetime : Value) (hnumber : e.recordedAt.number?.isSome = true)
    (h : e.age? now = none) : e.isLive lifetime (.int now) = .error .numberTooLarge := by
  obtain ⟨time, htime⟩ := Option.isSome_iff_exists.mp hnumber
  have hnow : (Value.int now).number? = some (.whole now) := rfl
  rw [age?, htime, Option.bind_some, Number.age?] at h
  rw [isLive, Value.subtract_of_numbers hnow htime, Value.subtractNumbers, h]
  rfl

theorem isLive_of_no_number (lifetime : Value) (now : Int) (hn : e.recordedAt.number? = none) :
    e.isLive lifetime (.int now) = .error (.noDifference .int e.recordedAt.kind) := by
  rw [isLive, Value.subtract_int_of_no_number now hn]
  rfl

/-- The float that is no number never grows old. -/
theorem isYoung_of_no_place {x : Float} (lifetime now : Int)
    (hx : e.recordedAt.number? = some (.float x)) (hnan : Binary64.place? x = none) :
    e.isYoung lifetime now = true := by
  rw [isYoung]
  cases hnow : Binary64.ofInt? now with
  | none =>
      have hage : e.age? now = none := by
        simp [age?, hx, Number.age?, Number.combine?, Number.toFloat?, hnow]
      rw [hage]
      rfl
  | some y =>
      have hnan' : (Number.float (y - x)).place? = none := Binary64.place?_sub_of_no_place y hnan
      rw [age?_of_float hnow hx, Option.all_some, Number.compare?_of_no_place (.inl hnan')]
      rfl

/-! Comparing ages -/

/-- An entry is no older than another one. -/
def IsNoOlder (now : Int) (b a : Entry) : Prop :=
  ∃ m n s t, a.age? now = some m ∧ b.age? now = some n ∧ m.place? = some s ∧ n.place? = some t ∧
    t ≤ s

theorem isYoung_iff_of_place {age : Number} {s : EReal} (lifetime : Int)
    (hage : e.age? now = some age) (hs : age.place? = some s) :
    e.isYoung lifetime now = true ↔ s < ((lifetime : ℝ) : EReal) := by
  have hlifetime : (Number.whole lifetime).place? = some ((lifetime : ℝ) : EReal) := rfl
  rw [isYoung, hage, Option.all_some, Number.compare?_of_places hs hlifetime, Bool.not_eq_true',
    ← Bool.not_eq_true, Value.Comparison.holds_atLeast_cmp_iff, not_le]

/-- Of an entry that is no older than a young one the age has not reached the lifetime either. -/
theorem IsNoOlder.isYoung {a b : Entry} {lifetime : Int} (h : b.IsNoOlder now a)
    (hyoung : a.isYoung lifetime now = true) : b.isYoung lifetime now = true := by
  obtain ⟨m, n, s, t, hm, hn, hs, ht, hle⟩ := h
  rw [isYoung_iff_of_place lifetime hm hs] at hyoung
  rw [isYoung_iff_of_place lifetime hn ht]
  exact hle.trans_lt hyoung

/-- The age of an entry is what its time leaves of `b`, rounded. -/
def IsLeftOf (b : ℝ) (now : Int) (e : Entry) : Prop :=
  ∃ s age p, e.recordedAt.place? = some s ∧ e.age? now = some age ∧ age.place? = some p ∧
    Binary64.Leaves b s p

/-- Of two such entries the one that is not earlier is no older. -/
theorem IsLeftOf.isNoOlder {b : ℝ} {e f : Entry} (he : e.IsLeftOf b now) (hf : f.IsLeftOf b now)
    {s t : EReal} (hs : e.recordedAt.place? = some s) (ht : f.recordedAt.place? = some t)
    (hle : s ≤ t) : f.IsNoOlder now e := by
  obtain ⟨_, m, p, hs', hm, hp, hleft⟩ := he
  obtain ⟨_, n, q, ht', hn, hq, hleft'⟩ := hf
  cases hs.symm.trans hs'
  cases ht.symm.trans ht'
  exact ⟨m, n, p, q, hm, hn, hp, hq, hleft.antitone hleft' hle⟩

theorem isLeftOf_of_float {b : ℝ} {x y : Float} {s : EReal} (hnow : Binary64.ofInt? now = some y)
    (hy : Binary64.place? y = some (b : EReal)) (hx : e.recordedAt.number? = some (.float x))
    (hs : Binary64.place? x = some s) : e.IsLeftOf b now := by
  obtain ⟨p, hp, hleft⟩ := Binary64.place?_sub hy hs
  refine ⟨s, .float (y - x), p, ?_, age?_of_float hnow hx, hp, hleft⟩
  rw [Value.place?, hx]
  exact hs

/-- A whole age of at most 53 digits is exact. -/
theorem isLeftOf_of_short {n : Int} (hn : e.recordedAt.number? = some (.whole n))
    (hshort : (now - n).natAbs < 2 ^ 53) : e.IsLeftOf now now := by
  refine ⟨_, _, _, Value.place?_of_whole hn, age?_of_whole now hn, rfl, .finite ?_⟩
  have hrounded := Binary64.isRounded_of_short hshort
  rw [Int.cast_sub] at hrounded ⊢
  exact hrounded

end Entry
end LiveFeed
