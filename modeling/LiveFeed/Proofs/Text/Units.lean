/-
Characters are read back from their units of sixteen bits: a character beyond sixteen bits becomes
a pair, and no other character looks like half of one.
-/
import LiveFeed.Text.Basic

namespace LiveFeed.Units

theorem points_cons_of_not_high {n : Nat} (h : isHigh n = false) (rest : List Nat) :
    points (n :: rest) = CodePoint.ofNat n :: points rest := by
  cases rest with
  | nil => simp [points]
  | cons m rest => simp [points, h]

theorem points_pair {high low : Nat} (hhigh : isHigh high = true) (hlow : isLow low = true)
    (rest : List Nat) :
    points (high :: low :: rest) = .char (joined high low) :: points rest := by
  simp [points, hhigh, hlow]

/-- No character has the number of a half of a pair. -/
theorem toNat_not_half (c : Char) : c.toNat < 0xD800 ∨ 0xDFFF < c.toNat ∧ c.toNat < 0x110000 :=
  c.valid

theorem ofNat_toNat (c : Char) : CodePoint.ofNat c.toNat = .char c := by
  have hhalf : ¬(CodePoint.firstHalf ≤ c.toNat ∧ c.toNat < CodePoint.firstHalf + 2048) := by
    have hc := toNat_not_half c
    simp only [CodePoint.firstHalf]
    omega
  rw [CodePoint.ofNat, dif_neg hhalf, Char.ofNat_toNat]

theorem joined_halves (c : Char) (h : 0x10000 ≤ c.toNat) :
    joined (0xD800 + (c.toNat - 0x10000) / 0x400) (0xDC00 + (c.toNat - 0x10000) % 0x400) = c := by
  have hsum : 0x10000 + (0xD800 + (c.toNat - 0x10000) / 0x400 - 0xD800) * 0x400 +
      (0xDC00 + (c.toNat - 0x10000) % 0x400 - 0xDC00) = c.toNat := by omega
  rw [joined, hsum, Char.ofNat_toNat]

theorem points_ofCodePoint (c : Char) (rest : List Nat) :
    points (ofCodePoint c.toNat ++ rest) = .char c :: points rest := by
  have hc := toNat_not_half c
  by_cases h : c.toNat < 0x10000
  · have hhigh : isHigh c.toNat = false := by
      simp only [isHigh, Bool.and_eq_false_iff, decide_eq_false_iff_not]
      omega
    rw [ofCodePoint, if_pos h, List.singleton_append, points_cons_of_not_high hhigh, ofNat_toNat]
  · have hhigh : isHigh (0xD800 + (c.toNat - 0x10000) / 0x400) = true := by
      simp only [isHigh, Bool.and_eq_true, decide_eq_true_eq]
      omega
    have hlow : isLow (0xDC00 + (c.toNat - 0x10000) % 0x400) = true := by
      simp only [isLow, Bool.and_eq_true, decide_eq_true_eq]
      omega
    rw [ofCodePoint, if_neg h]
    exact (points_pair hhigh hlow rest).trans
      (by rw [joined_halves c (Nat.le_of_not_lt h)])

/-- The units of characters are read back as these characters. -/
theorem points_flatMap (cs : List Char) :
    points (cs.flatMap fun c => ofCodePoint c.toNat) = cs.map .char := by
  induction cs with
  | nil => rfl
  | cons c rest ih => rw [List.flatMap_cons, points_ofCodePoint, ih, List.map_cons]

/-- Every unit of a character fits into sixteen bits. -/
theorem lt_of_mem_ofCodePoint {c : Char} {n : Nat} (h : n ∈ ofCodePoint c.toNat) :
    n < 0x10000 := by
  have hc := toNat_not_half c
  rw [ofCodePoint] at h
  split at h
  · rw [List.mem_singleton] at h
    omega
  · rw [List.mem_cons, List.mem_singleton] at h
    omega

end LiveFeed.Units
