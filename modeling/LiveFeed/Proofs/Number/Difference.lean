/-
Differences of floats.  The difference of two floats is the float nearest to the difference of their
places, and what an infinity leaves of a finite float is the other infinity.  So of two floats the
greater one leaves no more of a third.
-/
import LiveFeed.Proofs.Number.Packing

namespace LiveFeed.Binary64

open Float.Model
open Float.Model.UnpackedFloat

/-! Rounding with a sign -/

/-- A place is that of the number nearest to `v`, or of the infinity beyond the largest numbers. -/
inductive IsRounded (v : ℝ) : EReal → Prop where
  | nearest {m : Nat} {e : Int} (hnear : IsNearest |v| m e) :
      IsRounded v (limited (if v < 0 then -(m * 2 ^ e) else m * 2 ^ e))

/-- What a greater number is rounded to is not less. -/
theorem IsRounded.mono {v w : ℝ} {a b : EReal} (hvw : v ≤ w) (hv : IsRounded v a)
    (hw : IsRounded w b) : a ≤ b := by
  obtain @⟨m, d, hm⟩ := hv
  obtain @⟨n, e, hn⟩ := hw
  have hpos : (0 : ℝ) ≤ m * 2 ^ d := by positivity
  have hpos' : (0 : ℝ) ≤ n * 2 ^ e := by positivity
  apply limited_mono
  by_cases hv : v < 0
  · rw [if_pos hv]
    by_cases hw : w < 0
    · rw [if_pos hw]
      rw [abs_of_neg hv] at hm
      rw [abs_of_neg hw] at hn
      exact neg_le_neg (hn.mono (neg_le_neg hvw) hm)
    · rw [if_neg hw]
      linarith
  · have hw : ¬ w < 0 := fun hw => hv (hvw.trans_lt hw)
    rw [if_neg hv, if_neg hw]
    rw [abs_of_nonneg (not_lt.mp hv)] at hm
    rw [abs_of_nonneg (not_lt.mp hw)] at hn
    exact hm.mono hvw hn

/-- The nearest number takes the sign of what is rounded. -/
theorem IsNearest.isRounded (negative : Bool) {v : ℝ} {m : Nat} {e : Int} (hv : 0 ≤ v)
    (h : IsNearest v m e) :
    IsRounded (signFactor negative * v) (limited (signFactor negative * (m * 2 ^ e))) := by
  have hsigned : signFactor negative * (m * 2 ^ e) =
      if signFactor negative * v < 0 then -((m : ℝ) * 2 ^ e) else m * 2 ^ e := by
    cases negative
    · simp [signFactor, hv.not_gt]
    · rcases hv.eq_or_lt with rfl | hpos
      · simp [h.eq_zero]
      · simp [signFactor, hpos]
  rw [← abs_signFactor_mul negative hv] at h
  rw [hsigned]
  exact .nearest h

/-- An unpacked float is packed as what a number is rounded to. -/
def PacksTo (u : UnpackedFloat) (v : ℝ) : Prop :=
  ∃ place, unpackedPlace? (Float.Model.pack u).unpack = some place ∧ IsRounded v place

theorem IsNearestTo.packsTo {s : Sign} {v : ℝ} {u : UnpackedFloat} (hv : 0 ≤ v)
    (h : IsNearestTo s v u) : PacksTo u (signFactor (s == .negative) * v) := by
  obtain ⟨hcanonical, hsame, hnear⟩ := h
  refine ⟨_, unpackedPlace?_pack_ofParts s (hcanonical _), ?_⟩
  rw [hsame]
  exact hnear.isRounded _ hv

theorem packsTo_ofParts (s : Sign) {n : Nat} {f : Int}
    (hcanonical : (Reading.finite (s == .negative) n f).IsCanonical) :
    PacksTo (ofParts s n f) (signFactor (s == .negative) * (n * 2 ^ f)) :=
  (isNearestTo_self s hcanonical).packsTo (by positivity)

theorem packsTo_zero (s : Sign) : PacksTo (.zero s) 0 := by
  have hparts := packsTo_ofParts s (n := 0) ⟨by decide, Int.le_refl _, .inl rfl⟩
  rw [Nat.cast_zero, zero_mul, mul_zero] at hparts
  exact hparts

/-- Signed mantissas are rounded too. -/
theorem packsTo_normalize (m e : Int) (s : Sign) :
    PacksTo (UnpackedFloat.normalize Format.binary64 m e s) (m * 2 ^ e) := by
  rw [UnpackedFloat.normalize]
  rcases Int.lt_trichotomy m 0 with hneg | rfl | hpos
  · have hround := round_isNearestTo .negative (by omega : 0 < (-m).toNat) e
    have hvalue : signFactor (Sign.negative == .negative) * ((-m).toNat * 2 ^ e) =
        (m : ℝ) * 2 ^ e := by
      have hcast : ((-m).toNat : ℝ) = -m := by
        exact_mod_cast Int.toNat_of_nonneg (by omega : 0 ≤ -m)
      change -1 * _ = _
      rw [hcast]
      ring
    rw [Int.compare_eq_lt.mpr hneg, ← hvalue]
    exact hround.packsTo (by positivity)
  · rw [Int.cast_zero, zero_mul]
    exact packsTo_zero s
  · have hround := round_isNearestTo .positive (by omega : 0 < m.toNat) e
    have hvalue : signFactor (Sign.positive == .negative) * (m.toNat * 2 ^ e) =
        (m : ℝ) * 2 ^ e := by
      have hcast : (m.toNat : ℝ) = m := by exact_mod_cast Int.toNat_of_nonneg hpos.le
      change 1 * _ = _
      rw [hcast, one_mul]
    rw [Int.compare_eq_gt.mpr hpos, ← hvalue]
    exact hround.packsTo (by positivity)

/-! Subtraction -/

theorem eq_ofParts {u : UnpackedFloat} {negative : Bool} {n : Nat} {f : Int}
    (h : Reading.ofUnpacked u = .finite negative n f) :
    ∃ s, u = ofParts s n f ∧ (s == .negative) = negative := by
  rcases u with s | _ | s | ⟨s, m, e, hm⟩ <;> cases h
  · exact ⟨s, rfl, rfl⟩
  · exact ⟨s, by rw [ofParts, dif_neg hm.ne'], rfl⟩

theorem eq_infinity {u : UnpackedFloat} {negative : Bool}
    (h : Reading.ofUnpacked u = .infinite negative) :
    ∃ s, u = .infinity s ∧ (s == .negative) = negative := by
  rcases u with s | _ | s | ⟨s, m, e, hm⟩ <;> cases h
  exact ⟨s, rfl, rfl⟩

theorem signFactor_neg (s : Sign) :
    signFactor (-s == .negative) = -signFactor (s == .negative) := by
  cases s
  · exact (neg_neg 1).symm
  · rfl

/-- A signed mantissa on a finer grid counts the same. -/
theorem apply_shiftLeft (s : Sign) (m : Nat) {d e : Int} (h : e ≤ d) :
    (s.apply (m <<< (d - e).toNat : Nat) : ℝ) * 2 ^ e =
      signFactor (s == .negative) * (m * 2 ^ d) := by
  have hvalue : ((m <<< (d - e).toNat : Nat) : ℝ) * 2 ^ e = m * 2 ^ d := by
    rw [cast_shiftLeft_mul_zpow, Int.toNat_of_nonneg (by omega), sub_add_cancel]
  rw [← hvalue]
  cases s
  · change ((-((m <<< (d - e).toNat : Nat) : Int) : Int) : ℝ) * 2 ^ e = -1 * _
    rw [Int.cast_neg, Int.cast_natCast, neg_mul, neg_one_mul]
  · change ((((m <<< (d - e).toNat : Nat) : Int) : Int) : ℝ) * 2 ^ e = 1 * _
    rw [Int.cast_natCast, one_mul]

/-- The difference of two finite floats is that of their places, rounded. -/
theorem packsTo_sub {s t : Sign} {m n : Nat} {d e : Int}
    (hm : (Reading.finite (s == .negative) m d).IsCanonical)
    (hn : (Reading.finite (t == .negative) n e).IsCanonical) :
    PacksTo (UnpackedFloat.sub Format.binary64 (ofParts s m d) (ofParts t n e))
      (signFactor (s == .negative) * (m * 2 ^ d) -
        signFactor (t == .negative) * (n * 2 ^ e)) := by
  by_cases hzero : n = 0
  · subst hzero
    rw [Nat.cast_zero, zero_mul, mul_zero, sub_zero]
    by_cases hzero : m = 0
    · subst hzero
      rw [Nat.cast_zero, zero_mul, mul_zero]
      simp only [ofParts, dif_pos, UnpackedFloat.sub]
      split <;> exact packsTo_zero _
    · have hself := packsTo_ofParts s hm
      simp only [ofParts, dif_neg hzero] at hself
      simp only [ofParts, dif_pos, dif_neg hzero, UnpackedFloat.sub]
      exact hself
  · by_cases hzero' : m = 0
    · subst hzero'
      have hself := packsTo_ofParts (-t) (n := n) (f := e) hn
      rw [signFactor_neg, neg_mul] at hself
      simp only [ofParts, dif_neg hzero] at hself
      rw [Nat.cast_zero, zero_mul, mul_zero, zero_sub]
      simp only [ofParts, dif_pos, dif_neg hzero, UnpackedFloat.sub]
      exact hself
    · have hnormal := packsTo_normalize (s.apply (m <<< (d - min d e).toNat : Nat) -
        t.apply (n <<< (e - min d e).toNat : Nat)) (min d e) .positive
      rw [Int.cast_sub, sub_mul, apply_shiftLeft s m (min_le_left d e),
        apply_shiftLeft t n (min_le_right d e)] at hnormal
      simp only [ofParts, dif_neg hzero, dif_neg hzero', UnpackedFloat.sub, decreaseExponent]
      exact hnormal

/-- What is left of a number when a place is taken away. -/
inductive Leaves (b : ℝ) : EReal → EReal → Prop where
  | finite {a : ℝ} {left : EReal} (hrounded : IsRounded (b - a) left) : Leaves b a left
  | top : Leaves b ⊤ ⊥
  | bot : Leaves b ⊥ ⊤

/-- The greater one of two places leaves no more. -/
theorem Leaves.antitone {b : ℝ} {s t p q : EReal} (hs : Leaves b s p) (ht : Leaves b t q)
    (hle : s ≤ t) : q ≤ p := by
  cases hs with
  | bot => exact le_top
  | top =>
      obtain rfl := top_le_iff.mp hle
      generalize htop : (⊤ : EReal) = place at ht
      cases ht with
      | finite => cases EReal.top_ne_coe _ htop
      | top => exact le_rfl
      | bot => cases top_ne_bot htop
  | @finite a _ ha =>
      generalize hplace : (a : EReal) = place at hle
      cases ht with
      | top => exact bot_le
      | bot =>
          subst hplace
          cases EReal.coe_ne_bot a (le_bot_iff.mp hle)
      | @finite a' _ ha' =>
          subst hplace
          exact ha'.mono (sub_le_sub_left (EReal.coe_le_coe_iff.mp hle) b) ha

section

variable {x y : Float} {b : ℝ}

theorem exists_read_of_place (hx : place? x = some (b : EReal)) :
    ∃ negative n f, read x = .finite negative n f ∧ b = signFactor negative * (n * 2 ^ f) := by
  rw [place?] at hx
  cases hread : read x with
  | nan =>
      rw [hread] at hx
      cases hx
  | infinite negative =>
      rw [hread] at hx
      cases negative
      · cases EReal.top_ne_coe b (Option.some.inj hx)
      · cases EReal.bot_ne_coe b (Option.some.inj hx)
  | finite negative n f =>
      rw [hread] at hx
      exact ⟨negative, n, f, rfl, (EReal.coe_eq_coe_iff.mp (Option.some.inj hx)).symm⟩

theorem place?_sub_eq (x y : Float) :
    place? (x - y) = unpackedPlace? (Float.Model.pack
      (UnpackedFloat.sub Format.binary64 x.toModel.unpack y.toModel.unpack)).unpack :=
  place?_eq (x - y)

/-- The difference of two floats, of which the first is finite, is what the second one leaves. -/
theorem place?_sub {a : EReal} (hx : place? x = some (b : EReal)) (hy : place? y = some a) :
    ∃ left, place? (x - y) = some left ∧ Leaves b a left := by
  have hcanonical := isCanonical_toModel x
  have hcanonical' := isCanonical_toModel y
  obtain ⟨_, m, d, hread, rfl⟩ := exists_read_of_place hx
  rw [read_eq] at hread
  rw [hread] at hcanonical
  obtain ⟨s, hu, rfl⟩ := eq_ofParts hread
  rw [place?, read_eq] at hy
  rw [place?_sub_eq, hu]
  cases hread' : Reading.ofUnpacked y.toModel.unpack with
  | nan =>
      rw [hread'] at hy
      cases hy
  | infinite negative =>
      rw [hread'] at hy
      obtain ⟨t, hv, rfl⟩ := eq_infinity hread'
      have hinfinite : UnpackedFloat.sub Format.binary64 (ofParts s m d) (.infinity t) =
          .infinity (-t) := by
        rw [ofParts]
        split <;> rfl
      rw [hv, hinfinite, unpackedPlace?, ofUnpacked_pack_infinity]
      cases t <;> cases hy
      · exact ⟨⊤, rfl, .bot⟩
      · exact ⟨⊥, rfl, .top⟩
  | finite negative n e =>
      rw [hread'] at hy hcanonical'
      obtain ⟨t, hv, rfl⟩ := eq_ofParts hread'
      cases hy
      rw [hv]
      obtain ⟨left, hleft, hrounded⟩ := packsTo_sub hcanonical hcanonical'
      exact ⟨left, hleft, .finite hrounded⟩

/-- What is no number leaves no number. -/
theorem place?_sub_of_no_place (x : Float) (hy : place? y = none) : place? (x - y) = none := by
  have hnan : UnpackedFloat.sub Format.binary64 x.toModel.unpack .notANumber = .notANumber := by
    cases x.toModel.unpack <;> rfl
  rw [place?_sub_eq, unpack_of_no_place hy, hnan, unpackedPlace?, ofUnpacked_pack_notANumber]
  rfl

end

end LiveFeed.Binary64
