/-
Rounding to the nearest float.  A positive number is rounded on the grid that belongs to it; what is
shifted out of its mantissa leaves two bits that tell how it compares with a half.  Of two numbers
the greater one is never rounded to the less.
-/
import LiveFeed.Proofs.Number.Place

namespace LiveFeed.Binary64

open Float.Model
open Float.Model.UnpackedFloat

/-! The nearest number of a grid -/

/-- A mantissa and an exponent are those of the number nearest to `v`, which is not negative, on the
grid on which `v` counts less than `2 ^ 53` units, and at least `2 ^ 52` unless the grid is the
finest one; a half goes to the even mantissa. -/
structure IsNearest (v : ℝ) (mantissa : Nat) (exponent : Int) : Prop where
  least_le : leastExponent ≤ exponent
  lt : v < 2 ^ 53 * 2 ^ exponent
  le : exponent = leastExponent ∨ 2 ^ 52 * 2 ^ exponent ≤ v
  near : |mantissa * 2 ^ exponent - v| ≤ 2 ^ exponent / 2
  even : |mantissa * 2 ^ exponent - v| = 2 ^ exponent / 2 → mantissa % 2 = 0

namespace IsNearest

variable {v w : ℝ} {m n : Nat} {d e : Int}

theorem mantissa_le (h : IsNearest v m d) : m ≤ 2 ^ 53 := by
  have hpos : (0 : ℝ) < 2 ^ d := zpow_pos two_pos d
  have hnear := (abs_le.mp h.near).2
  have hlt := h.lt
  by_contra hgt
  have hcast : (2 : ℝ) ^ 53 + 1 ≤ m := by exact_mod_cast Nat.lt_of_not_le hgt
  have hscaled := mul_le_mul_of_nonneg_right hcast hpos.le
  linarith

theorem le_mantissa (h : IsNearest v m d) (hd : d ≠ leastExponent) : 2 ^ 52 ≤ m := by
  have hpos : (0 : ℝ) < 2 ^ d := zpow_pos two_pos d
  have hnear := (abs_le.mp h.near).1
  have hle := h.le.resolve_left hd
  by_contra hlt
  have hcast : (m : ℝ) + 1 ≤ 2 ^ 52 := by exact_mod_cast Nat.lt_of_not_le hlt
  have hscaled := mul_le_mul_of_nonneg_right hcast hpos.le
  linarith

/-- On one grid a half that goes down from the greater mantissa and up from the lesser one would go
to two even neighbours. -/
theorem mantissa_mono (hvw : v ≤ w) (hv : IsNearest v m d) (hw : IsNearest w n d) : m ≤ n := by
  have hpos : (0 : ℝ) < 2 ^ d := zpow_pos two_pos d
  have hdown := (abs_le.mp hv.near).2
  have hup := (abs_le.mp hw.near).1
  by_contra hgt
  have hcast : (n : ℝ) + 1 ≤ m := by exact_mod_cast Nat.lt_of_not_le hgt
  have hscaled := mul_le_mul_of_nonneg_right hcast hpos.le
  have hm : |(m : ℝ) * 2 ^ d - v| = 2 ^ d / 2 := by
    rw [abs_of_nonneg] <;> linarith
  have hn : |(n : ℝ) * 2 ^ d - w| = 2 ^ d / 2 := by
    rw [abs_of_nonpos] <;> linarith
  have hnext : (m : ℝ) * 2 ^ d = (n + 1 : Nat) * 2 ^ d := by
    push_cast
    linarith
  have hsucc : m = n + 1 := by exact_mod_cast mul_right_cancel₀ hpos.ne' hnext
  have heven := hv.even hm
  have heven' := hw.even hn
  omega

/-- The nearest number never falls. -/
theorem mono (hvw : v ≤ w) (hv : IsNearest v m d) (hw : IsNearest w n e) :
    (m : ℝ) * 2 ^ d ≤ n * 2 ^ e := by
  rcases lt_trichotomy d e with hlt | rfl | hgt
  · have hm : (m : ℝ) ≤ 2 ^ 53 := by exact_mod_cast hv.mantissa_le
    have hn : (2 : ℝ) ^ 52 ≤ n := by
      have hleast := hv.least_le
      exact_mod_cast hw.le_mantissa (by omega)
    have hgrid := two_mul_zpow_le hlt
    calc (m : ℝ) * 2 ^ d ≤ 2 ^ 53 * 2 ^ d := by gcongr
      _ = 2 ^ 52 * (2 * 2 ^ d) := by ring
      _ ≤ n * 2 ^ e := by gcongr
  · have hle : (m : ℝ) ≤ n := by exact_mod_cast hv.mantissa_mono hvw hw
    gcongr
  · have hleast := hw.least_le
    have hgrid := two_mul_zpow_le hgt
    have hle := hv.le.resolve_left (by omega)
    have hlt := hw.lt
    linarith

theorem eq_zero (h : IsNearest 0 m d) : m = 0 := by
  have hpos : (0 : ℝ) < 2 ^ d := zpow_pos two_pos d
  have hnear := (abs_le.mp h.near).2
  by_contra hne
  have hcast : (1 : ℝ) ≤ m := by exact_mod_cast Nat.pos_of_ne_zero hne
  have hscaled := mul_le_mul_of_nonneg_right hcast hpos.le
  linarith

/-- A number of the grid is nearest to itself. -/
theorem self {negative : Bool} (h : (Reading.finite negative m d).IsCanonical) :
    IsNearest (m * 2 ^ d) m d := by
  obtain ⟨hlt, hleast, hshort⟩ := h
  have hpos : (0 : ℝ) < 2 ^ d := zpow_pos two_pos d
  refine ⟨hleast, ?_, ?_, ?_, ?_⟩
  · have hcast : (m : ℝ) < 2 ^ 53 := by exact_mod_cast hlt
    gcongr
  · refine hshort.imp_right fun hle => ?_
    have hcast : (2 : ℝ) ^ 52 ≤ m := by exact_mod_cast hle
    gcongr
  · rw [sub_self, abs_zero]
    positivity
  · rw [sub_self, abs_zero]
    intro hzero
    linarith

end IsNearest

/-! Shifting a mantissa to the right -/

/-- The mantissa is `m` without its last `k` bits, and the two further bits tell how what has been
shifted out compares with a half. -/
def IsShifted (em : ExtendedMantissa) (m k : Nat) : Prop :=
  ∃ rest, m = em.mantissa * 2 ^ k + rest ∧ rest < 2 ^ k ∧
    match em.roundBit, em.stickyBit with
    | false, false => rest = 0
    | false, true => 0 < rest ∧ 2 * rest < 2 ^ k
    | true, false => 2 * rest = 2 ^ k
    | true, true => 2 ^ k < 2 * rest

theorem IsShifted.shiftRightOne {em : ExtendedMantissa} {m k : Nat} (h : IsShifted em m k) :
    IsShifted em.shiftRightOne m (k + 1) := by
  obtain ⟨mantissa, roundBit, stickyBit⟩ := em
  obtain ⟨rest, rfl, hlt, hbits⟩ := h
  refine ⟨mantissa % 2 * 2 ^ k + rest, ?_, ?_, ?_⟩
  · calc mantissa * 2 ^ k + rest = (mantissa / 2 * 2 + mantissa % 2) * 2 ^ k + rest := by
          rw [Nat.div_add_mod']
      _ = mantissa / 2 * 2 ^ (k + 1) + (mantissa % 2 * 2 ^ k + rest) := by ring
  · rcases Nat.mod_two_eq_zero_or_one mantissa with heven | hodd
    · rw [heven, Nat.pow_succ]
      omega
    · rw [hodd, Nat.pow_succ]
      omega
  · have hpos : 0 < 2 ^ k := Nat.two_pow_pos k
    rcases Nat.mod_two_eq_zero_or_one mantissa with heven | hodd <;>
      cases roundBit <;> cases stickyBit <;>
      simp_all [ExtendedMantissa.shiftRightOne, Nat.pow_succ] <;> omega

theorem isShifted_shiftRight (m k : Nat) :
    IsShifted (ExtendedMantissa.ofMantissaAndAccuracy m .exact >>> k) m k := by
  induction k with
  | zero => exact ⟨0, (Nat.mul_one m).symm, Nat.one_pos, rfl⟩
  | succ k ih => exact ih.shiftRightOne

/-- Rounding goes to the nearest multiple of `2 ^ k`, and a half goes to an even one. -/
theorem IsShifted.near {em : ExtendedMantissa} {m k : Nat} (h : IsShifted em m k) :
    2 * (em.roundedMantissa * 2 ^ k) ≤ 2 * m + 2 ^ k ∧
      2 * m ≤ 2 * (em.roundedMantissa * 2 ^ k) + 2 ^ k ∧
      (2 * (em.roundedMantissa * 2 ^ k) = 2 * m + 2 ^ k ∨
        2 * m = 2 * (em.roundedMantissa * 2 ^ k) + 2 ^ k → em.roundedMantissa % 2 = 0) := by
  obtain ⟨mantissa, roundBit, stickyBit⟩ := em
  obtain ⟨rest, rfl, hlt, hbits⟩ := h
  have hpos : 0 < 2 ^ k := Nat.two_pow_pos k
  have hparity := Nat.mod_two_eq_zero_or_one mantissa
  cases roundBit <;> cases stickyBit <;>
    simp only [ExtendedMantissa.roundedMantissa, ExtendedMantissa.accuracy,
      Accuracy.roundToNearestEven] at hbits ⊢
  · omega
  · omega
  · rcases hparity with heven | hodd
    · rw [heven, Nat.add_zero]
      omega
    · rw [hodd, Nat.add_mul]
      omega
  · rw [Nat.add_mul]
    omega

/-! Rounding -/

theorem targetExponent_eq (m : Nat) (e : Int) :
    Format.binary64.targetExponent (totalExponent m e) = max (m.log2 + e - 52) leastExponent := by
  have hbits : (Format.binary64.mantissaBits : Int) = 53 := rfl
  have hleast : Format.binary64.minExponent = leastExponent := rfl
  rw [Format.targetExponent, totalExponent, hbits, hleast]
  congr 1
  omega

/-- A mantissa of the grid that belongs to a number, and nearest to it. -/
theorem isNearest_of_near {m r k : Nat} {e t : Int} (hm : 0 < m) (hk : e + k = t)
    (ht : t = max (m.log2 + e - 52) leastExponent)
    (hup : 2 * (r * 2 ^ k) ≤ 2 * m + 2 ^ k) (hdown : 2 * m ≤ 2 * (r * 2 ^ k) + 2 ^ k)
    (heven : 2 * (r * 2 ^ k) = 2 * m + 2 ^ k ∨ 2 * m = 2 * (r * 2 ^ k) + 2 ^ k → r % 2 = 0) :
    IsNearest (m * 2 ^ e) r t := by
  have hpos : (0 : ℝ) < 2 ^ e := zpow_pos two_pos e
  have hgrid : (2 : ℝ) ^ t = 2 ^ k * 2 ^ e := by
    rw [pow_mul_zpow, ← hk, add_comm]
  have hoff : (r : ℝ) * 2 ^ t - m * 2 ^ e = (r * 2 ^ k - m) * 2 ^ e := by
    rw [hgrid]
    ring
  have hhalf : (2 : ℝ) ^ t / 2 = 2 ^ k / 2 * 2 ^ e := by
    rw [hgrid]
    ring
  have hup' : (2 : ℝ) * (r * 2 ^ k) ≤ 2 * m + 2 ^ k := by exact_mod_cast hup
  have hdown' : (2 : ℝ) * m ≤ 2 * (r * 2 ^ k) + 2 ^ k := by exact_mod_cast hdown
  refine ⟨by omega, ?_, ?_, ?_, ?_⟩
  · have hlog : (m : ℝ) < 2 ^ (m.log2 + 1) := by exact_mod_cast Nat.lt_log2_self
    calc (m : ℝ) * 2 ^ e < 2 ^ (m.log2 + 1) * 2 ^ e := by gcongr
      _ = 2 ^ ((m.log2 + 1 : Nat) + e) := pow_mul_zpow _ e
      _ ≤ 2 ^ ((53 : Nat) + t) := zpow_le_zpow_right₀ one_le_two (by omega)
      _ = 2 ^ 53 * 2 ^ t := (pow_mul_zpow 53 t).symm
  · by_cases hleast : t = leastExponent
    · exact .inl hleast
    · have hlog : (2 : ℝ) ^ m.log2 ≤ m := by exact_mod_cast Nat.log2_self_le hm.ne'
      have hexponent : (52 : Nat) + t = m.log2 + e := by omega
      right
      calc (2 : ℝ) ^ 52 * 2 ^ t = 2 ^ m.log2 * 2 ^ e := by
            rw [pow_mul_zpow, pow_mul_zpow, hexponent]
        _ ≤ m * 2 ^ e := by gcongr
  · rw [hoff, hhalf, abs_mul, abs_of_pos hpos]
    gcongr
    rw [abs_le]
    constructor <;> linarith
  · rw [hoff, hhalf, abs_mul, abs_of_pos hpos]
    intro hsame
    have habs := mul_right_cancel₀ hpos.ne' hsame
    apply heven
    rcases (abs_eq (by positivity)).mp habs with hhigh | hlow
    · left
      have hcast : (2 : ℝ) * (r * 2 ^ k) = 2 * m + 2 ^ k := by linarith
      exact_mod_cast hcast
    · right
      have hcast : (2 : ℝ) * m = 2 * (r * 2 ^ k) + 2 ^ k := by linarith
      exact_mod_cast hcast

/-- A mantissa that rounding has filled up is shifted once more, which is exact. -/
theorem shiftToTargetExponent_exact {r : Nat} {t : Int} (hr : r ≤ 2 ^ 53)
    (ht : leastExponent ≤ t) (hcanonical : t = leastExponent ∨ 2 ^ 52 ≤ r) :
    ∃ n f, shiftToTargetExponent Format.binary64 r t .exact = (⟨n, false, false⟩, f) ∧
      (n : ℝ) * 2 ^ f = r * 2 ^ t ∧ ∀ negative, (Reading.finite negative n f).IsCanonical := by
  rw [shiftToTargetExponent, targetExponent_eq]
  rcases Nat.lt_or_eq_of_le hr with hlt | rfl
  · have hlog : r.log2 ≤ 52 := by
      by_cases hzero : r = 0
      · simp [hzero]
      · have := (Nat.log2_lt hzero).mpr hlt
        omega
    have hstay : max ((r.log2 : Int) + t - 52) leastExponent - t ≤ 0 := by omega
    refine ⟨r, t, ?_, rfl, fun _ => ⟨hlt, ht, hcanonical⟩⟩
    simp only [shiftToExponent, Int.toNat_of_nonpos hstay, Int.natCast_zero, Int.add_zero]
    rfl
  · have hlog : (2 ^ 53 : Nat).log2 = 53 := Nat.log2_two_pow
    have hone : (max (((2 ^ 53 : Nat).log2 : Int) + t - 52) leastExponent - t).toNat = 1 := by
      omega
    refine ⟨2 ^ 52, t + 1, ?_, ?_, fun _ => ⟨by decide, by omega, .inr (by decide)⟩⟩
    · simp only [shiftToExponent, hone]
      rfl
    · rw [zpow_add₀ two_ne_zero]
      push_cast
      ring

/-- A finite unpacked float, of which the mantissa may vanish. -/
def ofParts (s : Sign) (n : Nat) (f : Int) : UnpackedFloat :=
  if h : n = 0 then .zero s else .finite s n f (Nat.pos_of_ne_zero h)

/-- An unpacked float is the one nearest to a positive number. -/
inductive IsNearestTo (s : Sign) (v : ℝ) : UnpackedFloat → Prop where
  | parts {n r : Nat} {f t : Int}
      (hcanonical : ∀ negative, (Reading.finite negative n f).IsCanonical)
      (hvalue : (n : ℝ) * 2 ^ f = r * 2 ^ t) (hnear : IsNearest v r t) :
      IsNearestTo s v (ofParts s n f)

theorem roundWithAccuracy_isNearestTo (s : Sign) {m : Nat} (hm : 0 < m) {e : Int}
    (he : e ≤ max (m.log2 + e - 52) leastExponent) :
    IsNearestTo s (m * 2 ^ e) (roundWithAccuracy Format.binary64 s m e .exact) := by
  obtain ⟨t, ht⟩ : ∃ t, t = max ((m.log2 : Int) + e - 52) leastExponent := ⟨_, rfl⟩
  have hk : e + (t - e).toNat = t := by omega
  have hfirst : shiftToTargetExponent Format.binary64 m e .exact =
      (ExtendedMantissa.ofMantissaAndAccuracy m .exact >>> (t - e).toNat, t) := by
    rw [shiftToTargetExponent, targetExponent_eq, ← ht, shiftToExponent]
    exact congrArg _ hk
  obtain ⟨hup, hdown, heven⟩ := (isShifted_shiftRight m (t - e).toNat).near
  have hnear := isNearest_of_near hm hk ht hup hdown heven
  obtain ⟨n, f, hsecond, hvalue, hcanonical⟩ := shiftToTargetExponent_exact hnear.mantissa_le
    hnear.least_le (or_iff_not_imp_left.mpr hnear.le_mantissa)
  have hround : roundWithAccuracy Format.binary64 s m e .exact = ofParts s n f := by
    simp only [roundWithAccuracy, hfirst, hsecond]
    rfl
  rw [hround]
  exact .parts hcanonical hvalue hnear

/-- Rounding finds the nearest float. -/
theorem round_isNearestTo (s : Sign) {m : Nat} (hm : 0 < m) (e : Int) :
    IsNearestTo s (m * 2 ^ e) (UnpackedFloat.round Format.binary64 s m e) := by
  obtain ⟨j, hj⟩ : ∃ j, j = (e - max ((m.log2 : Int) + e - 52) leastExponent).toNat := ⟨_, rfl⟩
  have hpos : 0 < m <<< j := by
    rw [Nat.shiftLeft_eq]
    positivity
  have hlog : (m <<< j).log2 = m.log2 + j := by
    rw [Nat.log2_eq_iff hpos.ne', Nat.shiftLeft_eq, Nat.add_right_comm, Nat.pow_add,
      Nat.pow_add _ _ j]
    exact ⟨Nat.mul_le_mul_right _ (Nat.log2_self_le hm.ne'),
      Nat.mul_lt_mul_of_pos_right Nat.lt_log2_self (Nat.two_pow_pos j)⟩
  have hvalue : ((m <<< j : Nat) : ℝ) * 2 ^ (e - j) = m * 2 ^ e := by
    rw [cast_shiftLeft_mul_zpow, add_sub_cancel]
  have hround := roundWithAccuracy_isNearestTo s hpos (by omega : e - j ≤ _)
  rw [hvalue] at hround
  rw [UnpackedFloat.round, targetExponent_eq, decreaseExponent, ← hj]
  exact hround

/-- A canonical float is nearest to itself. -/
theorem isNearestTo_self (s : Sign) {n : Nat} {f : Int}
    (hcanonical : (Reading.finite (s == .negative) n f).IsCanonical) :
    IsNearestTo s (n * 2 ^ f) (ofParts s n f) :=
  .parts (fun _ => hcanonical) rfl (.self hcanonical)

end LiveFeed.Binary64
