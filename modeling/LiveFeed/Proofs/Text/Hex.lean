/-
Hexadecimal text.  The text of octets has lower-case digits alone and is read back as these octets;
what is read at all are the spellings: digits of either letter case, and blanks around the octets.
-/
import LiveFeed.Text.Hex

namespace LiveFeed.Hex

theorem value?_digit {n : Nat} (h : n < 16) : value? (digit n) = some n := by
  have hall : ∀ n < 16, value? (digit n) = some n := by decide
  exact hall n h

theorem high_lt (b : UInt8) : b.toNat / 16 < 16 := by
  have hb : b.toNat < 256 := b.toNat_lt
  omega

theorem low_lt (b : UInt8) : b.toNat % 16 < 16 := Nat.mod_lt _ (by decide)

/-- Whether a character is a digit of the lower case. -/
def IsLowerDigit (c : Char) : Prop := '0' ≤ c ∧ c ≤ '9' ∨ 'a' ≤ c ∧ c ≤ 'f'

/-- Whether a character is such a digit can be decided. -/
instance (c : Char) : Decidable (IsLowerDigit c) :=
  inferInstanceAs (Decidable ('0' ≤ c ∧ c ≤ '9' ∨ 'a' ≤ c ∧ c ≤ 'f'))

theorem mem_digits {bytes : Bytes} {c : Char} (h : c ∈ digits bytes) :
    ∃ n < 16, c = digit n := by
  obtain ⟨b, -, hc⟩ := List.mem_flatMap.mp h
  rw [pair, List.mem_cons, List.mem_singleton] at hc
  rcases hc with rfl | rfl
  · exact ⟨_, high_lt b, rfl⟩
  · exact ⟨_, low_lt b, rfl⟩

theorem isLowerDigit_of_mem_digits {bytes : Bytes} {c : Char} (h : c ∈ digits bytes) :
    IsLowerDigit c := by
  have hall : ∀ n < 16, IsLowerDigit (digit n) := by decide
  obtain ⟨n, hn, rfl⟩ := mem_digits h
  exact hall n hn

/-! Spellings -/

/-- The spellings of octets: two digits for each, the high one first and both of either letter case,
with blanks around the octets but not inside them. -/
inductive Spells : List Char → Bytes → Prop where
  | done : Spells [] []
  | blank {c : Char} {rest : List Char} {bytes : Bytes} (hblank : isBlank c = true)
      (hrest : Spells rest bytes) : Spells (c :: rest) bytes
  | octet {c d : Char} {high low : Nat} {rest : List Char} {bytes : Bytes}
      (hhigh : value? c = some high) (hlow : value? d = some low) (hrest : Spells rest bytes) :
      Spells (c :: d :: rest) (UInt8.ofNat (16 * high + low) :: bytes)

theorem le_iff_toNat_le (a b : Char) : a ≤ b ↔ a.toNat ≤ b.toNat := Iff.rfl

/-- Digits are ASCII characters behind the blanks. -/
theorem bounds_of_value? {c : Char} {n : Nat} (h : value? c = some n) :
    48 ≤ c.toNat ∧ c.toNat < 128 := by
  simp only [value?, le_iff_toNat_le] at h
  split at h
  · rename_i hdigit
    exact ⟨hdigit.1, Nat.lt_of_le_of_lt hdigit.2 (by decide)⟩
  · split at h
    · rename_i hsmall
      exact ⟨Nat.le_trans (by decide) hsmall.1, Nat.lt_of_le_of_lt hsmall.2 (by decide)⟩
    · split at h
      · rename_i hlarge
        exact ⟨Nat.le_trans (by decide) hlarge.1, Nat.lt_of_le_of_lt hlarge.2 (by decide)⟩
      · cases h

theorem toNat_le_of_isBlank {c : Char} (h : isBlank c = true) : c.toNat ≤ 32 := by
  rw [isBlank, Bool.or_eq_true, beq_iff_eq, Bool.and_eq_true, decide_eq_true_eq,
    decide_eq_true_eq] at h
  rcases h with rfl | ⟨-, hle⟩
  · decide
  · exact Nat.le_trans ((le_iff_toNat_le _ _).mp hle) (by decide)

theorem isBlank_of_value? {c : Char} {n : Nat} (h : value? c = some n) : isBlank c = false := by
  have hlow := (bounds_of_value? h).1
  rw [← Bool.not_eq_true]
  intro hblank
  have hhigh := toNat_le_of_isBlank hblank
  omega

theorem Spells.toNat_lt {cs : List Char} {bytes : Bytes} (h : Spells cs bytes) :
    ∀ c ∈ cs, c.toNat < 128 := by
  induction h with
  | done => exact List.forall_mem_nil _
  | blank hblank _ ih =>
      rw [List.forall_mem_cons]
      exact ⟨Nat.lt_of_le_of_lt (toNat_le_of_isBlank hblank) (by decide), ih⟩
  | octet hhigh hlow _ ih =>
      rw [List.forall_mem_cons, List.forall_mem_cons]
      exact ⟨(bounds_of_value? hhigh).2, (bounds_of_value? hlow).2, ih⟩

theorem read_of_spells {cs : List Char} {bytes : Bytes} (h : Spells cs bytes) (position : Nat) :
    read position cs = .ok bytes := by
  induction h generalizing position with
  | done => rfl
  | blank hblank _ ih =>
      rw [read.eq_def]
      simp only [hblank, ↓reduceIte, ih]
  | octet hhigh hlow _ ih =>
      rw [read.eq_4 _ _ _ _ _ hhigh]
      simp only [isBlank_of_value? hhigh, Bool.false_eq_true, ↓reduceIte, hlow, ih]
      rfl

theorem spells_of_read {cs : List Char} {bytes : Bytes} {position : Nat}
    (h : read position cs = .ok bytes) : Spells cs bytes := by
  fun_induction read position cs generalizing bytes with
  | case1 =>
      cases h
      exact .done
  | case2 _ _ _ hblank ih => exact .blank hblank (ih h)
  | case3 => cases h
  | case4 => cases h
  | case5 => cases h
  | case6 position _ _ _ _ rest hhigh _ hlow ih =>
      cases hrest : read (position + 2) rest with
      | error fault =>
          rw [hrest] at h
          cases h
      | ok more =>
          rw [hrest] at h
          cases h
          exact .octet hhigh hlow (ih hrest)

/-- The texts that are read are the spellings of their octets. -/
theorem decode_eq_ok_iff {t : Text} {bytes : Bytes} :
    decode t = .ok bytes ↔ Spells t.chars bytes := by
  rw [decode]
  constructor
  · intro h
    split at h
    · cases h
    · exact spells_of_read h
  · intro h
    have hascii : t.chars.findIdx? (fun c => 128 ≤ c.toNat) = none := by
      rw [List.findIdx?_eq_none_iff]
      intro c hc
      exact decide_eq_false (Nat.not_le.mpr (h.toNat_lt c hc))
    rw [hascii]
    exact read_of_spells h 0

theorem spells_digits (bytes : Bytes) : Spells (digits bytes) bytes := by
  induction bytes with
  | nil => exact .done
  | cons b rest ih =>
      have hoctet := Spells.octet (value?_digit (high_lt b)) (value?_digit (low_lt b)) ih
      rw [Nat.div_add_mod, UInt8.ofNat_toNat] at hoctet
      exact hoctet

/-- The text of octets is read back as these octets. -/
theorem decode_encode (bytes : Bytes) : decode (.ofString (encode bytes)) = .ok bytes := by
  rw [decode_eq_ok_iff, Text.chars_ofString, encode, String.toList_ofList]
  exact spells_digits bytes

end LiveFeed.Hex
