/-
Packing.  The parts of a pattern are read back from it; a finite float whose mantissa fits is packed
as it is, unless its exponent is too large, and then as the infinity of its sign.
-/
import LiveFeed.Proofs.Number.Rounding

namespace LiveFeed.Binary64

open Float.Model
open Float.Model.UnpackedFloat

/-! Patterns and their parts -/

/-- A pattern is read as the parts of which it is made. -/
theorem ofPattern_parts (negative : Bool) {e m : Nat} (he : e < 2 ^ 11) (hm : m < 2 ^ 52) :
    Reading.ofPattern ((if negative then 2 ^ 63 else 0) + (e * 2 ^ 52 + m)) =
      if e = 2047 then if m = 0 then .infinite negative else .nan
      else if e = 0 then .finite negative m leastExponent
      else .finite negative (m + 2 ^ 52) (e - 1075) := by
  generalize hbits : (if negative then 2 ^ 63 else 0) + (e * 2 ^ 52 + m) = bits
  have hsign : decide (bits / 2 ^ 63 = 1) = negative := by
    cases negative <;> simp at hbits ⊢ <;> omega
  have hexponent : bits / 2 ^ 52 % 2 ^ 11 = e := by
    cases negative <;> simp at hbits <;> omega
  have hmantissa : bits % 2 ^ 52 = m := by
    cases negative <;> simp at hbits <;> omega
  rw [Reading.ofPattern, hsign, hexponent, hmantissa]

theorem toNat_packComponents (s : Sign) (e : BitVec 11) (m : BitVec 52) :
    (packComponents Format.binary64 s e m).toNat =
      (if s == .negative then 2 ^ 63 else 0) + (e.toNat * 2 ^ 52 + m.toNat) := by
  have hsign : s.toBitVec.toNat = if s == .negative then 1 else 0 := by cases s <;> rfl
  change (s.toBitVec ++ e ++ m).toNat = _
  rw [BitVec.toNat_append, BitVec.toNat_append, ← Nat.shiftLeft_add_eq_or_of_lt e.isLt,
    ← Nat.shiftLeft_add_eq_or_of_lt m.isLt, Nat.shiftLeft_eq, Nat.shiftLeft_eq, hsign]
  split <;> omega

theorem ofUnpacked_packComponents (s : Sign) (e : BitVec 11) (m : BitVec 52) :
    Reading.ofUnpacked (UnpackedFloat.unpack Format.binary64
        (packComponents Format.binary64 s e m)) =
      if e.toNat = 2047 then if m.toNat = 0 then .infinite (s == .negative) else .nan
      else if e.toNat = 0 then .finite (s == .negative) m.toNat leastExponent
      else .finite (s == .negative) (m.toNat + 2 ^ 52) (e.toNat - 1075) := by
  rw [ofUnpacked_unpack, toNat_packComponents, ofPattern_parts _ e.isLt m.isLt]

/-! Packed floats -/

theorem ofUnpacked_pack_notANumber :
    Reading.ofUnpacked (Float.Model.pack .notANumber).unpack = .nan :=
  ofUnpacked_packComponents .positive (-1#11) (1#52 <<< 51)

theorem ofUnpacked_pack_infinity (s : Sign) :
    Reading.ofUnpacked (Float.Model.pack (.infinity s)).unpack = .infinite (s == .negative) :=
  ofUnpacked_packComponents s (-1#11) 0#52

theorem ofUnpacked_pack_zero (s : Sign) :
    Reading.ofUnpacked (Float.Model.pack (.zero s)).unpack =
      .finite (s == .negative) 0 leastExponent :=
  ofUnpacked_packComponents s 0#11 0#52

/-- A canonical float is packed as it is, unless it is too large. -/
theorem ofUnpacked_pack_finite (s : Sign) {n : Nat} {f : Int} (hn : 0 < n)
    (hcanonical : (Reading.finite (s == .negative) n f).IsCanonical) :
    Reading.ofUnpacked (Float.Model.pack (.finite s n f hn)).unpack =
      if f ≤ 971 then .finite (s == .negative) n f else .infinite (s == .negative) := by
  obtain ⟨hlt, hleast, hshort⟩ := hcanonical
  have hleast' : -1074 ≤ f := hleast
  change Reading.ofUnpacked (UnpackedFloat.unpack Format.binary64
    (if 2 ^ 11 ≤ (f + 1023 + 52).toNat + 1 then packComponents Format.binary64 s (-1#11) 0#52
    else if n.log2 + 1 = 53 then
      packComponents Format.binary64 s (BitVec.ofNat 11 (f + 1023 + 52).toNat) (BitVec.ofNat 52 n)
    else packComponents Format.binary64 s 0#11 (BitVec.ofNat 52 n))) = _
  by_cases hin : f ≤ 971
  · rw [if_neg (by omega), if_pos hin]
    by_cases hnormal : 2 ^ 52 ≤ n
    · have hlog : n.log2 = 52 := (Nat.log2_eq_iff hn.ne').mpr ⟨hnormal, hlt⟩
      rw [if_pos (by omega), ofUnpacked_packComponents, BitVec.toNat_ofNat, BitVec.toNat_ofNat,
        if_neg (by omega), if_neg (by omega)]
      congr 1 <;> omega
    · have hlog : n.log2 < 52 := (Nat.log2_lt hn.ne').mpr (Nat.lt_of_not_le hnormal)
      rw [if_neg (by omega), ofUnpacked_packComponents, if_neg (by decide), if_pos (by decide),
        BitVec.toNat_ofNat, Nat.mod_eq_of_lt (Nat.lt_of_not_le hnormal),
        hshort.resolve_right hnormal]
  · rw [if_pos (by omega), if_neg hin]
    exact ofUnpacked_packComponents s (-1#11) 0#52

/-! The places of packed floats -/

theorem abs_signFactor_mul (negative : Bool) {p : ℝ} (hp : 0 ≤ p) :
    |signFactor negative * p| = p := by
  cases negative <;> simp [signFactor, abs_of_nonneg hp]

/-- A number of the format is not limited. -/
theorem limited_of_canonical {negative : Bool} {n : Nat} {f : Int}
    (hcanonical : (Reading.finite negative n f).IsCanonical) (hf : f ≤ 971) :
    limited (signFactor negative * (n * 2 ^ f)) =
      ((signFactor negative * (n * 2 ^ f) : ℝ) : EReal) := by
  have hlt : (n : ℝ) < 2 ^ 53 := by exact_mod_cast hcanonical.1
  apply limited_of_lt
  calc |signFactor negative * ((n : ℝ) * 2 ^ f)| = n * 2 ^ f :=
        abs_signFactor_mul negative (by positivity)
    _ < 2 ^ 53 * 2 ^ f := by gcongr
    _ = 2 ^ ((53 : Nat) + f) := pow_mul_zpow 53 f
    _ ≤ 2 ^ ((1024 : Nat) : Int) := zpow_le_zpow_right₀ one_le_two (by omega)
    _ = 2 ^ 1024 := zpow_natCast 2 1024

/-- What is too large is infinite, with its sign. -/
theorem limited_of_large (negative : Bool) {n : Nat} {f : Int} (hn : 2 ^ 52 ≤ n) (hf : 971 < f) :
    limited (signFactor negative * (n * 2 ^ f)) = if negative then ⊥ else ⊤ := by
  have hcast : (2 : ℝ) ^ 52 ≤ n := by exact_mod_cast hn
  have hlarge : (2 : ℝ) ^ 1024 ≤ n * 2 ^ f := by
    calc (2 : ℝ) ^ 1024 = 2 ^ ((1024 : Nat) : Int) := (zpow_natCast 2 1024).symm
      _ ≤ 2 ^ ((52 : Nat) + f) := zpow_le_zpow_right₀ one_le_two (by omega)
      _ = 2 ^ 52 * 2 ^ f := (pow_mul_zpow 52 f).symm
      _ ≤ n * 2 ^ f := by gcongr
  cases negative
  · change limited (1 * _) = ⊤
    rw [one_mul, limited, if_pos hlarge]
  · change limited (-1 * _) = ⊥
    rw [neg_one_mul, limited_neg_of_le hlarge]

/-- A finite float is packed with its sign, or as the infinity of that sign. -/
theorem unpackedPlace?_pack_ofParts (s : Sign) {n : Nat} {f : Int}
    (hcanonical : (Reading.finite (s == .negative) n f).IsCanonical) :
    unpackedPlace? (Float.Model.pack (ofParts s n f)).unpack =
      some (limited (signFactor (s == .negative) * (n * 2 ^ f))) := by
  rw [ofParts, unpackedPlace?]
  by_cases hzero : n = 0
  · subst hzero
    rw [dif_pos rfl, ofUnpacked_pack_zero, Reading.place?, limited_of_lt (by simp)]
    simp
  · rw [dif_neg hzero, ofUnpacked_pack_finite s _ hcanonical]
    by_cases hin : f ≤ 971
    · rw [if_pos hin, Reading.place?, limited_of_canonical hcanonical hin]
    · have hshort : 2 ^ 52 ≤ n :=
        hcanonical.2.2.resolve_left (by simp only [leastExponent]; omega)
      rw [if_neg hin, Reading.place?, limited_of_large _ hshort (by omega)]

end LiveFeed.Binary64
