/-
The place of a number on the line that ends in two infinities.  Numbers of both types compare as
their places do, and only what is not a number has none.
-/
import LiveFeed.Value.Basic
import Mathlib

namespace LiveFeed

open Float.Model

namespace Binary64

/-! Reading a pattern is unpacking it -/

section Unpack

open UnpackedFloat

/-- What an unpacked float stands for. -/
def Reading.ofUnpacked : UnpackedFloat → Reading
  | .notANumber => .nan
  | .infinity s => .infinite (s == .negative)
  | .zero s => .finite (s == .negative) 0 leastExponent
  | .finite s mantissa exponent _ => .finite (s == .negative) mantissa exponent

theorem toNat_unpackMantissa (b : BitVec Format.binary64.numBits) :
    (unpackMantissa b).toNat = b.toNat % 2 ^ 52 := by
  simp [unpackMantissa, BitVec.extractLsb]

theorem toNat_unpackExponent (b : BitVec Format.binary64.numBits) :
    (unpackExponent b).toNat = b.toNat / 2 ^ 52 % 2 ^ 11 := by
  simp [unpackExponent, BitVec.extractLsb, Nat.shiftRight_eq_div_pow]

theorem toNat_unpackSign (b : BitVec Format.binary64.numBits) :
    (unpackSign b).toNat = b.toNat / 2 ^ 63 := by
  have hlt : b.toNat < 2 ^ 64 := b.isLt
  simp only [unpackSign, BitVec.extractLsb, BitVec.toNat_cast, BitVec.extractLsb'_toNat,
    Nat.shiftRight_eq_div_pow]
  omega

theorem isNegative_unpackSign (b : BitVec Format.binary64.numBits) :
    (Sign.ofBitVec (unpackSign b) == .negative) = decide (b.toNat / 2 ^ 63 = 1) := by
  have hlt : b.toNat < 2 ^ 64 := b.isLt
  rw [← toNat_unpackSign]
  have hsign := (unpackSign b).isLt
  generalize unpackSign b = s at hsign
  revert s
  decide

theorem unpackExponent_eq_neg_one_iff (b : BitVec Format.binary64.numBits) :
    unpackExponent b = -1#11 ↔ b.toNat / 2 ^ 52 % 2 ^ 11 = 2047 := by
  rw [← BitVec.toNat_inj, toNat_unpackExponent]
  rfl

theorem unpackExponent_eq_zero_iff (b : BitVec Format.binary64.numBits) :
    unpackExponent b = 0#11 ↔ b.toNat / 2 ^ 52 % 2 ^ 11 = 0 := by
  rw [← BitVec.toNat_inj, toNat_unpackExponent]
  rfl

theorem unpackMantissa_eq_zero_iff (b : BitVec Format.binary64.numBits) :
    unpackMantissa b = 0#52 ↔ b.toNat % 2 ^ 52 = 0 := by
  rw [← BitVec.toNat_inj, toNat_unpackMantissa, BitVec.toNat_ofNat, Nat.zero_mod]

theorem toNat_append_mantissa (b : BitVec Format.binary64.numBits) :
    (1#1 ++ unpackMantissa b).toNat = b.toNat % 2 ^ 52 + 2 ^ 52 := by
  have hlt := (unpackMantissa b).isLt
  rw [BitVec.toNat_append, ← Nat.shiftLeft_add_eq_or_of_lt hlt, toNat_unpackMantissa,
    Nat.add_comm]
  rfl

/-- What the pattern of the given number stands for. -/
def Reading.ofPattern (bits : Nat) : Reading :=
  let negative := decide (bits / 2 ^ 63 = 1)
  if bits / 2 ^ 52 % 2 ^ 11 = 2047 then
    if bits % 2 ^ 52 = 0 then .infinite negative else .nan
  else if bits / 2 ^ 52 % 2 ^ 11 = 0 then .finite negative (bits % 2 ^ 52) leastExponent
  else .finite negative (bits % 2 ^ 52 + 2 ^ 52) ((bits / 2 ^ 52 % 2 ^ 11 : Nat) - 1075)

theorem ofUnpacked_unpack (b : BitVec Format.binary64.numBits) :
    Reading.ofUnpacked (unpack Format.binary64 b) = .ofPattern b.toNat := by
  unfold Reading.ofPattern UnpackedFloat.unpack
  dsimp only
  by_cases hinfinite : b.toNat / 2 ^ 52 % 2 ^ 11 = 2047
  · rw [if_pos ((unpackExponent_eq_neg_one_iff b).mpr hinfinite), if_pos hinfinite]
    by_cases hzero : b.toNat % 2 ^ 52 = 0
    · rw [if_pos ((unpackMantissa_eq_zero_iff b).mpr hzero), if_pos hzero, Reading.ofUnpacked,
        isNegative_unpackSign]
    · rw [if_neg (hzero ∘ (unpackMantissa_eq_zero_iff b).mp), if_neg hzero, Reading.ofUnpacked]
  · rw [if_neg (hinfinite ∘ (unpackExponent_eq_neg_one_iff b).mp), if_neg hinfinite]
    by_cases hleast : b.toNat / 2 ^ 52 % 2 ^ 11 = 0
    · rw [if_pos ((unpackExponent_eq_zero_iff b).mpr hleast), if_pos hleast]
      by_cases hzero : b.toNat % 2 ^ 52 = 0
      · rw [dif_pos ((unpackMantissa_eq_zero_iff b).mpr hzero), Reading.ofUnpacked,
          isNegative_unpackSign, hzero]
      · rw [dif_neg (hzero ∘ (unpackMantissa_eq_zero_iff b).mp), Reading.ofUnpacked,
          isNegative_unpackSign, toNat_unpackMantissa, toNat_unpackExponent, hleast]
        rfl
    · rw [if_neg (hleast ∘ (unpackExponent_eq_zero_iff b).mp), if_neg hleast,
        Reading.ofUnpacked, isNegative_unpackSign, toNat_append_mantissa, toNat_unpackExponent]
      rfl

/-- A pattern is read as it is unpacked. -/
theorem read_eq (x : Float) : read x = .ofUnpacked x.toModel.unpack := by
  rw [Float.Model.unpack, ofUnpacked_unpack]
  rfl

end Unpack

/-- The sign of a number, as a factor. -/
def signFactor (negative : Bool) : ℝ := if negative then -1 else 1

/-- The place of what a pattern stands for. -/
noncomputable def Reading.place? : Reading → Option EReal
  | .finite negative mantissa exponent =>
      some ((signFactor negative * (mantissa * 2 ^ exponent) : ℝ) : EReal)
  | .infinite negative => some (if negative then ⊥ else ⊤)
  | .nan => none

/-- A number of the format, or the infinity that lies beyond its numbers. -/
noncomputable def limited (p : ℝ) : EReal :=
  if 2 ^ 1024 ≤ p then ⊤ else if p ≤ -2 ^ 1024 then ⊥ else p

theorem limited_mono : Monotone limited := by
  intro p q hle
  rw [limited, limited]
  by_cases hq : 2 ^ 1024 ≤ q
  · rw [if_pos hq]
    exact le_top
  · rw [if_neg (fun hp => hq (hp.trans hle)), if_neg hq]
    by_cases hp : p ≤ -2 ^ 1024
    · rw [if_pos hp]
      exact bot_le
    · rw [if_neg hp, if_neg (fun hq => hp (hle.trans hq))]
      exact EReal.coe_le_coe_iff.mpr hle

theorem limited_of_lt {p : ℝ} (hp : |p| < 2 ^ 1024) : limited p = p := by
  obtain ⟨hlow, hhigh⟩ := abs_lt.mp hp
  rw [limited, if_neg hhigh.not_ge, if_neg hlow.not_ge]

theorem limited_neg_of_le {p : ℝ} (hp : 2 ^ 1024 ≤ p) : limited (-p) = ⊥ := by
  have hpos : (0 : ℝ) < 2 ^ 1024 := pow_pos two_pos _
  have hneg : -p < 2 ^ 1024 := (neg_neg_of_pos (hpos.trans_le hp)).trans hpos
  rw [limited, if_neg hneg.not_ge, if_pos (neg_le_neg hp)]

/-- A reading whose mantissa fits, and is short only on the finest grid. -/
def Reading.IsCanonical : Reading → Prop
  | .finite _ mantissa exponent =>
      mantissa < 2 ^ 53 ∧ leastExponent ≤ exponent ∧
        (exponent = leastExponent ∨ 2 ^ 52 ≤ mantissa)
  | _ => True

theorem isCanonical_ofPattern (bits : Nat) : (Reading.ofPattern bits).IsCanonical := by
  unfold Reading.ofPattern
  dsimp only
  have hfraction : bits % 2 ^ 52 < 2 ^ 52 := Nat.mod_lt _ (by decide)
  split
  · split <;> trivial
  · split
    · exact ⟨by omega, Int.le_refl _, .inl rfl⟩
    · exact ⟨by omega, by simp only [leastExponent]; omega, .inr (by omega)⟩

theorem isCanonical_unpack (b : BitVec Format.binary64.numBits) :
    (Reading.ofUnpacked (UnpackedFloat.unpack Format.binary64 b)).IsCanonical :=
  ofUnpacked_unpack b ▸ isCanonical_ofPattern b.toNat

theorem isCanonical_toModel (x : Float) : (Reading.ofUnpacked x.toModel.unpack).IsCanonical :=
  isCanonical_unpack x.toModel.toBits.toBitVec

/-! Mantissas on grids -/

theorem pow_mul_zpow (k : Nat) (e : Int) : (2 : ℝ) ^ k * 2 ^ e = 2 ^ (k + e) := by
  rw [zpow_add₀ two_ne_zero, zpow_natCast]

theorem two_mul_zpow_le {d e : Int} (h : d < e) : (2 : ℝ) * 2 ^ d ≤ 2 ^ e := by
  rw [← zpow_one_add₀ two_ne_zero]
  exact zpow_le_zpow_right₀ one_le_two (by omega)

/-- A mantissa that is shifted to the left counts the same on the finer grid. -/
theorem cast_shiftLeft_mul_zpow (m j : Nat) (e : Int) :
    ((m <<< j : Nat) : ℝ) * 2 ^ e = m * 2 ^ (j + e) := by
  rw [Nat.shiftLeft_eq, Nat.cast_mul, Nat.cast_pow, Nat.cast_two, mul_assoc, pow_mul_zpow]

/-- Of two canonical readings the one on the finer grid is the less. -/
theorem mul_zpow_lt {m n : Nat} {d e : Int} (hm : m < 2 ^ 53) (hn : 2 ^ 52 ≤ n) (hlt : d < e) :
    (m : ℝ) * 2 ^ d < n * 2 ^ e := by
  have hpos : (0 : ℝ) < 2 ^ d := zpow_pos two_pos d
  have hm' : (m : ℝ) < 2 * 2 ^ 52 := by
    have hcast : (m : ℝ) < (2 ^ 53 : Nat) := by exact_mod_cast hm
    norm_num at hcast ⊢
    exact hcast
  have hn' : (2 : ℝ) ^ 52 ≤ n := by exact_mod_cast hn
  have hgrid := two_mul_zpow_le hlt
  calc (m : ℝ) * 2 ^ d < 2 * 2 ^ 52 * 2 ^ d := by gcongr
    _ = 2 ^ 52 * (2 * 2 ^ d) := by ring
    _ ≤ n * 2 ^ e := by gcongr

/-- Canonical mantissas and exponents compare first by the exponent. -/
theorem then_compare_eq_cmp {negative : Bool} {m n : Nat} {d e : Int}
    (hm : (Reading.finite negative m d).IsCanonical)
    (hn : (Reading.finite negative n e).IsCanonical) :
    (compare d e).then (compare m n) = cmp ((m : ℝ) * 2 ^ d) (n * 2 ^ e) := by
  obtain ⟨hm, hd, hm'⟩ := hm
  obtain ⟨hn, he, hn'⟩ := hn
  rcases Int.lt_trichotomy d e with hlt | rfl | hgt
  · have hless := mul_zpow_lt hm (hn'.resolve_left (by omega)) hlt
    rw [Int.compare_eq_lt.mpr hlt, (cmp_eq_lt_iff _ _).mpr hless]
    rfl
  · have hpos : (0 : ℝ) < 2 ^ d := zpow_pos two_pos d
    rw [cmp_mul_pos_right hpos, Nat.strictMono_cast.cmp_map_eq, cmp_eq_compare,
      Int.compare_eq_eq.mpr rfl]
    rfl
  · have hless := mul_zpow_lt hn (hm'.resolve_left (by omega)) hgt
    rw [Int.compare_eq_gt.mpr hgt, (cmp_eq_gt_iff _ _).mpr hless]
    rfl

section Compare

open UnpackedFloat

/-- The place of what an unpacked float stands for. -/
noncomputable def unpackedPlace? (u : UnpackedFloat) : Option EReal :=
  (Reading.ofUnpacked u).place?

@[simp] theorem unpackedPlace?_notANumber : unpackedPlace? .notANumber = none := rfl

@[simp] theorem unpackedPlace?_infinity_positive : unpackedPlace? (.infinity .positive) = some ⊤ :=
  rfl

@[simp] theorem unpackedPlace?_infinity_negative : unpackedPlace? (.infinity .negative) = some ⊥ :=
  rfl

@[simp] theorem unpackedPlace?_zero (s : Sign) : unpackedPlace? (.zero s) = some 0 := by
  simp [unpackedPlace?, Reading.ofUnpacked, Reading.place?]

variable {m : Nat} {e : Int} (hm : 0 < m)

@[simp] theorem unpackedPlace?_positive :
    unpackedPlace? (.finite .positive m e hm) = some ((m * 2 ^ e : ℝ) : EReal) := by
  change some (((1 : ℝ) * (m * 2 ^ e) : ℝ) : EReal) = _
  rw [one_mul]

@[simp] theorem unpackedPlace?_negative :
    unpackedPlace? (.finite .negative m e hm) = some ((-(m * 2 ^ e) : ℝ) : EReal) := by
  change some (((-1 : ℝ) * (m * 2 ^ e) : ℝ) : EReal) = _
  rw [neg_one_mul]

theorem mul_zpow_pos (e : Int) (hm : 0 < m) : (0 : ℝ) < m * 2 ^ e :=
  mul_pos (Nat.cast_pos.mpr hm) (zpow_pos two_pos e)

theorem cmp_neg_neg (x y : ℝ) : cmp (-x) (-y) = cmp y x := by
  simp [cmp, cmpUsing]

/-- Canonical floats compare as their places do. -/
theorem compare_eq_cmp {u v : UnpackedFloat} {a b : EReal}
    (hu : (Reading.ofUnpacked u).IsCanonical) (hv : (Reading.ofUnpacked v).IsCanonical)
    (ha : unpackedPlace? u = some a) (hb : unpackedPlace? v = some b) :
    u.compare v = some (cmp a b) := by
  have hlt {a b : EReal} (h : a < b) : some Ordering.lt = some (cmp a b) :=
    congrArg some ((cmp_eq_lt_iff a b).mpr h).symm
  have hgt {a b : EReal} (h : b < a) : some Ordering.gt = some (cmp a b) :=
    congrArg some ((cmp_eq_gt_iff a b).mpr h).symm
  have heq {a : EReal} : some Ordering.eq = some (cmp a a) :=
    congrArg some (cmp_self_eq_eq a).symm
  have hneg {m : Nat} (e : Int) (hm : 0 < m) : ((-(m * 2 ^ e) : ℝ) : EReal) < 0 :=
    EReal.coe_neg'.mpr (neg_neg_of_pos (mul_zpow_pos e hm))
  have hpos {m : Nat} (e : Int) (hm : 0 < m) : 0 < ((m * 2 ^ e : ℝ) : EReal) :=
    EReal.coe_pos.mpr (mul_zpow_pos e hm)
  rcases u with (_ | _) | _ | _ | ⟨_ | _, m, d, hm⟩ <;>
    rcases v with (_ | _) | _ | _ | ⟨_ | _, n, e, hn⟩ <;>
    simp only [unpackedPlace?_notANumber, unpackedPlace?_infinity_positive,
      unpackedPlace?_infinity_negative, unpackedPlace?_zero, unpackedPlace?_positive,
      unpackedPlace?_negative, Option.some.injEq, reduceCtorEq] at ha hb <;>
    subst ha hb
  case finite.negative.finite.negative =>
    rw [EReal.coe_strictMono.cmp_map_eq, cmp_neg_neg, ← cmp_swap, ← then_compare_eq_cmp hu hv]
    rfl
  case finite.positive.finite.positive =>
    rw [EReal.coe_strictMono.cmp_map_eq, ← then_compare_eq_cmp hu hv]
    rfl
  case infinity.negative.infinity.negative | infinity.positive.infinity.positive | zero.zero =>
    exact heq
  case infinity.negative.infinity.positive => exact hlt bot_lt_top
  case infinity.positive.infinity.negative => exact hgt bot_lt_top
  case infinity.negative.zero | infinity.negative.finite.negative
      | infinity.negative.finite.positive =>
    exact hlt (EReal.bot_lt_coe _)
  case zero.infinity.negative | finite.negative.infinity.negative
      | finite.positive.infinity.negative =>
    exact hgt (EReal.bot_lt_coe _)
  case infinity.positive.zero | infinity.positive.finite.negative
      | infinity.positive.finite.positive =>
    exact hgt (EReal.coe_lt_top _)
  case zero.infinity.positive | finite.negative.infinity.positive
      | finite.positive.infinity.positive =>
    exact hlt (EReal.coe_lt_top _)
  case zero.finite.negative => exact hgt (hneg e hn)
  case zero.finite.positive => exact hlt (hpos e hn)
  case finite.negative.zero => exact hlt (hneg d hm)
  case finite.positive.zero => exact hgt (hpos d hm)
  case finite.negative.finite.positive => exact hlt ((hneg d hm).trans (hpos e hn))
  case finite.positive.finite.negative => exact hgt ((hneg e hn).trans (hpos d hm))

end Compare

/-- The place of a float. -/
noncomputable def place? (x : Float) : Option EReal := (read x).place?

section

variable {x y : Float} {a b : EReal}

theorem place?_eq (x : Float) : place? x = unpackedPlace? x.toModel.unpack := by
  rw [place?, read_eq, unpackedPlace?]

theorem compare_unpack (hx : place? x = some a) (hy : place? y = some b) :
    x.toModel.unpack.compare y.toModel.unpack = some (cmp a b) := by
  rw [place?_eq] at hx hy
  exact compare_eq_cmp (isCanonical_toModel x) (isCanonical_toModel y) hx hy

theorem lt_iff_compare_unpack :
    x < y ↔ x.toModel.unpack.compare y.toModel.unpack = some .lt := by
  change decide (x.toModel < y.toModel) = true ↔ _
  rw [decide_eq_true_iff, ← beq_iff_eq]
  rfl

theorem beq_iff_compare_unpack :
    (x == y) = true ↔ x.toModel.unpack.compare y.toModel.unpack = some .eq := by
  rw [← beq_iff_eq (a := UnpackedFloat.compare _ _)]
  rfl

theorem unpack_of_no_place (h : place? x = none) : x.toModel.unpack = .notANumber := by
  rw [place?_eq] at h
  rcases hu : x.toModel.unpack with (_ | _) | _ | _ | ⟨_ | _, m, e, hm⟩ <;> simp [hu] at h ⊢

theorem exists_place (h : read x ≠ .nan) : ∃ a, place? x = some a := by
  rw [place?]
  cases hread : read x with
  | nan => contradiction
  | infinite negative => exact ⟨_, rfl⟩
  | finite negative mantissa exponent => exact ⟨_, rfl⟩

/-- Without a place for either there is no order. -/
theorem compare_unpack_of_no_place (h : place? x = none ∨ place? y = none) :
    x.toModel.unpack.compare y.toModel.unpack = none := by
  rcases h with h | h
  · rw [unpack_of_no_place h]
    rfl
  · rw [unpack_of_no_place h]
    cases x.toModel.unpack <;> rfl

/-- What is greater than something is not equal to it. -/
theorem beq_eq_false_of_lt (h : y < x) : (x == y) = false := by
  rw [lt_iff_compare_unpack] at h
  rw [← Bool.not_eq_true, beq_iff_compare_unpack]
  cases hx : place? x with
  | none =>
      rw [compare_unpack_of_no_place (.inr hx)] at h
      cases h
  | some a =>
      cases hy : place? y with
      | none =>
          rw [compare_unpack_of_no_place (.inl hy)] at h
          cases h
      | some b =>
          rw [compare_unpack hy hx, Option.some.injEq, cmp_eq_lt_iff] at h
          rw [compare_unpack hx hy, Option.some.injEq, cmp_eq_eq_iff]
          exact h.ne'

end

/-- Whole numbers that are measured in smaller units compare as before. -/
theorem compare_inUnits (n : Int) (negative : Bool) (mantissa : Nat) (exponent : Int) :
    let units := inUnits mantissa 1 (-exponent)
    compare (n * units.2) (if negative then -(units.1 : Int) else units.1) =
      cmp (n : ℝ) (signFactor negative * (mantissa * 2 ^ exponent)) := by
  have hunits : (2 : ℝ) ^ exponent * 2 ^ (-exponent).toNat = 2 ^ exponent.toNat := by
    have hexponent : ((-exponent).toNat : Int) + exponent = exponent.toNat := by omega
    rw [mul_comm, pow_mul_zpow, hexponent, zpow_natCast]
  have hpos : (0 : ℝ) < 2 ^ (-exponent).toNat := pow_pos two_pos _
  intro units
  rw [← cmp_mul_pos_right hpos, mul_assoc, mul_assoc, hunits, ← cmp_eq_compare,
    ← (Int.cast_strictMono : StrictMono (Int.cast : Int → ℝ)).cmp_map_eq]
  congr 1
  · simp [units, inUnits]
  · cases negative <;> simp [units, inUnits, signFactor]

/-- A whole number and a float compare as their places do. -/
theorem compareInt_of_place (n : Int) {x : Float} {a : EReal} (hx : place? x = some a) :
    compareInt n x = some (cmp ((n : ℝ) : EReal) a) := by
  rw [place?] at hx
  rw [compareInt]
  cases hread : read x with
  | nan => rw [hread] at hx; cases hx
  | infinite negative =>
      rw [hread] at hx
      cases negative
      · cases hx
        exact congrArg some ((cmp_eq_lt_iff _ _).mpr (EReal.coe_lt_top _)).symm
      · cases hx
        exact congrArg some ((cmp_eq_gt_iff _ _).mpr (EReal.bot_lt_coe _)).symm
  | finite negative mantissa exponent =>
      rw [hread] at hx
      cases hx
      rw [EReal.coe_strictMono.cmp_map_eq]
      exact congrArg some (compare_inUnits n negative mantissa exponent)

theorem compareInt_of_no_place (n : Int) {x : Float} (hx : place? x = none) :
    compareInt n x = none := by
  rw [place?] at hx
  rw [compareInt]
  cases hread : read x <;> simp [hread, Reading.place?] at hx ⊢

end Binary64

namespace Number

/-- The place of a number of either type; what is not a number has none. -/
noncomputable def place? : Number → Option EReal
  | .whole n => some ((n : ℝ) : EReal)
  | .float x => Binary64.place? x

variable {m n : Number} {a b : EReal}

theorem compare?_of_places (hm : m.place? = some a) (hn : n.place? = some b) :
    m.compare? n = some (cmp a b) := by
  cases m with
  | whole m =>
      cases hm
      cases n with
      | whole n =>
          cases hn
          rw [compare?, EReal.coe_strictMono.cmp_map_eq, Int.cast_strictMono.cmp_map_eq,
            cmp_eq_compare]
      | float y => exact Binary64.compareInt_of_place m hn
  | float x =>
      cases n with
      | whole n =>
          cases hn
          rw [compare?, Binary64.compareInt_of_place n hm, Option.map_some, cmp_swap]
      | float y =>
          rw [compare?]
          simp only [Binary64.lt_iff_compare_unpack, Binary64.beq_iff_compare_unpack,
            Binary64.compare_unpack hm hn, Binary64.compare_unpack hn hm, Option.some.injEq,
            cmp_eq_lt_iff, cmp_eq_eq_iff]
          rcases lt_trichotomy a b with hlt | rfl | hgt
          · rw [if_pos hlt, (cmp_eq_lt_iff a b).mpr hlt]
          · simp
          · rw [if_neg hgt.not_gt, if_pos hgt, (cmp_eq_gt_iff a b).mpr hgt]

theorem compare?_of_no_place (h : m.place? = none ∨ n.place? = none) : m.compare? n = none := by
  cases m with
  | whole m =>
      cases n with
      | whole n => simp [place?] at h
      | float y => exact Binary64.compareInt_of_no_place m (h.resolve_left nofun)
  | float x =>
      cases n with
      | whole n => rw [compare?, Binary64.compareInt_of_no_place n (h.resolve_right nofun)]; rfl
      | float y =>
          have hxy := Binary64.compare_unpack_of_no_place h
          have hyx := Binary64.compare_unpack_of_no_place h.symm
          simp only [compare?, Binary64.lt_iff_compare_unpack, Binary64.beq_iff_compare_unpack,
            hxy, hyx, reduceCtorEq, if_false]

end Number
end LiveFeed
