/-
Whole numbers as floats.  A whole number that is not too large is turned into a finite float; one of
at most 53 digits is turned into a float as it is, and is rounded to itself.
-/
import LiveFeed.Proofs.Number.Difference

namespace LiveFeed.Binary64

/-- A pattern below that of the infinities is that of a finite float. -/
theorem place?_ofBits (negative : Bool) {bits : Nat} (h : bits < infinityBits) :
    place? (ofBits negative bits) =
      (if bits / 2 ^ 52 = 0 then Reading.finite negative (bits % 2 ^ 52) leastExponent
      else .finite negative (bits % 2 ^ 52 + 2 ^ 52) ((bits / 2 ^ 52 : Nat) - 1075)).place? := by
  have hbits : bits < 2047 * 2 ^ 52 := h
  have hfield : bits / 2 ^ 52 < 2047 := by omega
  obtain ⟨word, hword⟩ : ∃ word : UInt64,
      word = UInt64.ofNat ((if negative then Nat.pow 2 63 else 0) + bits) := ⟨_, rfl⟩
  have hpattern : word.toBitVec.toNat =
      (if negative then 2 ^ 63 else 0) + (bits / 2 ^ 52 * 2 ^ 52 + bits % 2 ^ 52) := by
    rw [Nat.div_add_mod', hword]
    change ((if negative then Nat.pow 2 63 else 0) + bits) % 2 ^ 64 = _
    rw [Nat.pow_eq]
    apply Nat.mod_eq_of_lt
    cases negative <;> simp <;> omega
  have hread := ofUnpacked_unpack word.toBitVec
  have hcanonical := isCanonical_unpack word.toBitVec
  rw [hpattern, ofPattern_parts negative (by omega) (Nat.mod_lt _ (by decide)),
    if_neg hfield.ne] at hread
  obtain ⟨n, f, hfinite, hf⟩ : ∃ n f,
      (if bits / 2 ^ 52 = 0 then Reading.finite negative (bits % 2 ^ 52) leastExponent
      else .finite negative (bits % 2 ^ 52 + 2 ^ 52) ((bits / 2 ^ 52 : Nat) - 1075)) =
        .finite negative n f ∧ f ≤ 971 := by
    split
    · exact ⟨_, _, rfl, by decide⟩
    · exact ⟨_, _, rfl, by omega⟩
  rw [hfinite] at hread ⊢
  rw [hread] at hcanonical
  obtain ⟨s, hparts, rfl⟩ := eq_ofParts hread
  rw [Reading.place?, ← limited_of_canonical hcanonical hf,
    ← unpackedPlace?_pack_ofParts s hcanonical, ← hparts, place?_eq, hword]
  rfl

/-- A whole number that is turned into a float gets a finite one. -/
theorem exists_place_of_ofInt? {n : Int} {x : Float} (h : ofInt? n = some x) :
    ∃ a : ℝ, place? x = some (a : EReal) := by
  simp only [ofInt?] at h
  split at h
  case isFalse => cases h
  case isTrue hbits =>
    cases h
    rw [place?_ofBits _ hbits]
    split <;> exact ⟨_, rfl⟩

/-- A whole number of at most 53 digits has them at the top of a mantissa. -/
theorem shifted_bounds {n : Nat} (hn : 0 < n) (hlt : n < 2 ^ 53) :
    2 ^ 52 ≤ n * 2 ^ (52 - n.log2) ∧ n * 2 ^ (52 - n.log2) < 2 ^ 53 := by
  have hlog : n.log2 < 53 := (Nat.log2_lt hn.ne').mpr hlt
  constructor
  · calc 2 ^ 52 = 2 ^ n.log2 * 2 ^ (52 - n.log2) := by rw [← Nat.pow_add]; congr 1; omega
      _ ≤ n * 2 ^ (52 - n.log2) := Nat.mul_le_mul_right _ (Nat.log2_self_le hn.ne')
  · calc n * 2 ^ (52 - n.log2) < 2 ^ (n.log2 + 1) * 2 ^ (52 - n.log2) :=
          Nat.mul_lt_mul_of_pos_right Nat.lt_log2_self (Nat.two_pow_pos _)
      _ = 2 ^ 53 := by rw [← Nat.pow_add]; congr 1; omega

theorem shifted_value {n : Nat} (hn : 0 < n) (hlt : n < 2 ^ 53) :
    ((n * 2 ^ (52 - n.log2) : Nat) : ℝ) * 2 ^ ((n.log2 : Int) - 52) = n := by
  have hlog : n.log2 < 53 := (Nat.log2_lt hn.ne').mpr hlt
  have hexponent : ((52 - n.log2 : Nat) : Int) + (n.log2 - 52) = 0 := by omega
  rw [← Nat.shiftLeft_eq, cast_shiftLeft_mul_zpow, hexponent, zpow_zero, mul_one]

theorem inUnits_whole (n : Nat) {e : Int} (he : e ≤ 0) :
    inUnits n 1 e = (n * 2 ^ (-e).toNat, 1) := by
  rw [inUnits, Int.toNat_of_nonpos he, Nat.pow_eq]

theorem ratioBits_whole {n : Nat} (hn : 0 < n) (hlt : n < 2 ^ 53) :
    ratioBits n 1 = (n.log2 + 1022) * 2 ^ 52 + n * 2 ^ (52 - n.log2) := by
  have hlog : n.log2 < 53 := (Nat.log2_lt hn.ne').mpr hlt
  have hone : Nat.log2 1 = 0 := rfl
  have hgrid : gridExponent n 1 = n.log2 - 52 := by
    have hdouble : n * 2 ^ (53 - n.log2) = 2 * (n * 2 ^ (52 - n.log2)) := by
      have hsucc : 53 - n.log2 = 52 - n.log2 + 1 := by omega
      rw [hsucc, Nat.pow_succ]
      ring
    have hbounds := shifted_bounds hn hlt
    have hestimate : (-((n.log2 : Int) - (0 : Nat) - 53)).toNat = 53 - n.log2 := by omega
    rw [gridExponent, hone]
    simp only [inUnits_whole n (by omega : (n.log2 : Int) - (0 : Nat) - 53 ≤ 0), hestimate, hdouble,
      Nat.div_one, Nat.pow_eq]
    rw [if_neg (by omega)]
    simp only [leastExponent]
    omega
  have hexponent : (-((n.log2 : Int) - 52)).toNat = 52 - n.log2 := by omega
  have hfield : ((n.log2 : Int) - 52 - leastExponent).toNat = n.log2 + 1022 := by
    simp only [leastExponent]
    omega
  have hround (t : Nat) : roundHalfEven t 1 = t := by
    simp [roundHalfEven, Nat.mod_one]
  have hbounds := shifted_bounds hn hlt
  rw [ratioBits, if_neg hn.ne', hgrid]
  simp only [inUnits_whole n (by omega : (n.log2 : Int) - 52 ≤ 0), hexponent, hfield, hround,
    Nat.pow_eq, infinityBits]
  omega

theorem signFactor_mul_natAbs (n : Int) :
    signFactor (decide (n < 0)) * n.natAbs = n := by
  by_cases hneg : n < 0
  · rw [decide_eq_true hneg, Nat.cast_natAbs, abs_of_neg hneg]
    simp [signFactor]
  · rw [decide_eq_false hneg, Nat.cast_natAbs, abs_of_nonneg (not_lt.mp hneg)]
    simp [signFactor]

/-- A whole number of at most 53 digits is turned into a float as it is. -/
theorem ofInt?_of_short {n : Int} (h : n.natAbs < 2 ^ 53) :
    ∃ x, ofInt? n = some x ∧ place? x = some ((n : ℝ) : EReal) := by
  rcases Nat.eq_zero_or_pos n.natAbs with hzero | hpos
  · obtain rfl := Int.natAbs_eq_zero.mp hzero
    refine ⟨ofBits false 0, rfl, ?_⟩
    rw [place?_ofBits false (by decide), if_pos (by decide), Reading.place?]
    simp
  · have hbounds := shifted_bounds hpos h
    have hvalue := shifted_value hpos h
    have hlog : n.natAbs.log2 < 53 := (Nat.log2_lt hpos.ne').mpr h
    have hbits := ratioBits_whole hpos h
    have hfinite : ratioBits n.natAbs 1 < infinityBits := by
      rw [hbits]
      simp only [infinityBits, Nat.pow_eq]
      omega
    refine ⟨ofBits (decide (n < 0)) (ratioBits n.natAbs 1), ?_, ?_⟩
    · rw [ofInt?, if_pos hfinite]
    · have hfield : ratioBits n.natAbs 1 / 2 ^ 52 = n.natAbs.log2 + 1023 := by omega
      have hfraction : ratioBits n.natAbs 1 % 2 ^ 52 + 2 ^ 52 =
          n.natAbs * 2 ^ (52 - n.natAbs.log2) := by omega
      have hexponent : ((n.natAbs.log2 + 1023 : Nat) : Int) - 1075 = n.natAbs.log2 - 52 := by omega
      rw [place?_ofBits _ hfinite, hfield, if_neg (by omega), hfraction, hexponent,
        Reading.place?, hvalue, signFactor_mul_natAbs]

/-- A whole number of at most 53 digits is rounded to itself. -/
theorem isRounded_of_short {n : Int} (h : n.natAbs < 2 ^ 53) : IsRounded n ((n : ℝ) : EReal) := by
  obtain ⟨m, e, hcanonical, he, hvalue⟩ : ∃ m e,
      (Reading.finite (decide (n < 0)) m e).IsCanonical ∧ e ≤ 971 ∧ (m : ℝ) * 2 ^ e = n.natAbs := by
    rcases Nat.eq_zero_or_pos n.natAbs with hzero | hpos
    · exact ⟨0, leastExponent, ⟨by decide, Int.le_refl _, .inl rfl⟩, by decide, by simp [hzero]⟩
    · have hlog : n.natAbs.log2 < 53 := (Nat.log2_lt hpos.ne').mpr h
      obtain ⟨hlow, hhigh⟩ := shifted_bounds hpos h
      refine ⟨_, _, ⟨hhigh, ?_, .inr hlow⟩, ?_, shifted_value hpos h⟩
      · simp only [leastExponent]
        omega
      · omega
  have hself := (IsNearest.self hcanonical).isRounded (decide (n < 0)) (by positivity)
  rw [limited_of_canonical hcanonical he, hvalue, signFactor_mul_natAbs] at hself
  exact hself

end LiveFeed.Binary64
