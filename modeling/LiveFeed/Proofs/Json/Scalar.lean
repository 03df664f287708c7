/-
Texts and whole numbers are read back from their JSON text.  A text is read up to its closing quote
whatever follows; a number ends where nothing follows that could belong to it.
-/
import LiveFeed.Json.Writer
import LiveFeed.Proofs.Text.Ascii
import LiveFeed.Proofs.Text.Hex
import LiveFeed.Proofs.Text.Units
import Mathlib.Logic.Function.Defs

namespace LiveFeed.Json

/-! Texts -/

theorem unit?_hexDigits {n : Nat} (h : n < 0x10000) :
    unit? (Hex.digit (n / 16 / 16 / 16 % 16)) (Hex.digit (n / 16 / 16 % 16))
      (Hex.digit (n / 16 % 16)) (Hex.digit (n % 16)) = some n := by
  have hlt (m : Nat) : m % 16 < 16 := Nat.mod_lt m (by decide)
  simp only [unit?, Hex.value?_digit (hlt _), Option.bind_eq_bind, Option.bind_some]
  refine congrArg some ?_
  omega

theorem stringBody_unitEscape {n : Nat} (h : n < 0x10000) (opening : List Char) {rest : List Char}
    (hrest : rest ≠ []) {units : List Nat} {left : List Char}
    (hread : stringBody opening rest = .ok (units, left)) :
    stringBody opening (unitEscape n ++ rest) = .ok (n :: units, left) := by
  obtain ⟨c, more, rfl⟩ := List.exists_cons_of_ne_nil hrest
  have hunit := stringBody.eq_4 opening _ _ _ _ c more n (unit?_hexDigits h)
  rw [hread] at hunit
  exact hunit

theorem stringBody_unitEscapes (ns : List Nat) (h : ∀ n ∈ ns, n < 0x10000) (opening : List Char)
    {rest : List Char} (hrest : rest ≠ []) {units : List Nat} {left : List Char}
    (hread : stringBody opening rest = .ok (units, left)) :
    stringBody opening (ns.flatMap unitEscape ++ rest) = .ok (ns ++ units, left) := by
  induction ns with
  | nil => exact hread
  | cons n ns ih =>
      have hns := ih fun m hm => h m (List.mem_cons_of_mem _ hm)
      rw [List.flatMap_cons, List.append_assoc]
      exact stringBody_unitEscape (h n List.mem_cons_self) opening
        (List.append_ne_nil_of_right_ne_nil _ hrest) hns

theorem stringBody_letter {letter c : Char} (hletter : escaped? letter = some c)
    (hu : letter ≠ 'u') (opening rest : List Char) {units : List Nat} {left : List Char}
    (hread : stringBody opening rest = .ok (units, left)) :
    stringBody opening ('\\' :: letter :: rest) = .ok (c.toNat :: units, left) := by
  rw [stringBody.eq_7 _ _ _ (fun _ _ _ _ _ h => absurd h hu) hu, hletter, hread]
  rfl

theorem stringBody_plain {c : Char} (hquote : c ≠ '"') (hslash : c ≠ '\\') (hc : 32 ≤ c.toNat)
    (opening rest : List Char) {units : List Nat} {left : List Char}
    (hread : stringBody opening rest = .ok (units, left)) :
    stringBody opening (c :: rest) = .ok (c.toNat :: units, left) := by
  rw [stringBody.eq_8 _ _ _ hquote (absurd · hslash) (fun _ _ _ _ _ h => absurd h hslash)
    (fun _ h => absurd h hslash) (fun _ _ h => absurd h hslash), if_neg (Nat.not_lt.mpr hc), hread]
  rfl

/-- A character is escaped by a letter, or it stands for itself, or its units are escaped. -/
theorem escape_cases (c : Char) :
    (∃ letter, escape (.char c) = ['\\', letter] ∧ escaped? letter = some c ∧ letter ≠ 'u' ∧
      IsPrintableAscii letter ∧ c.toNat < 127) ∨
    (escape (.char c) = [c] ∧ c ≠ '"' ∧ c ≠ '\\' ∧ IsPrintableAscii c) ∨
    escape (.char c) = (Units.ofCodePoint c.toNat).flatMap unitEscape := by
  unfold escape
  split
  case h_1 hc =>
      cases hc
      exact .inl ⟨'"', rfl, rfl, by decide, by decide, by decide⟩
  case h_2 hc =>
      cases hc
      exact .inl ⟨'\\', rfl, rfl, by decide, by decide, by decide⟩
  case h_3 hc =>
      cases hc
      exact .inl ⟨'n', rfl, rfl, by decide, by decide, by decide⟩
  case h_4 hc =>
      cases hc
      exact .inl ⟨'r', rfl, rfl, by decide, by decide, by decide⟩
  case h_5 hc =>
      cases hc
      exact .inl ⟨'t', rfl, rfl, by decide, by decide, by decide⟩
  case h_6 hc =>
      cases hc
      exact .inl ⟨'b', rfl, rfl, by decide, by decide, by decide⟩
  case h_7 hc =>
      cases hc
      exact .inl ⟨'f', rfl, rfl, by decide, by decide, by decide⟩
  case h_8 hquote hslash _ _ _ _ _ =>
      simp only [CodePoint.toNat, Char.ofNat_toNat]
      by_cases hshown : 32 ≤ c.toNat ∧ c.toNat < 127
      · rw [if_pos hshown]
        exact .inr (.inl ⟨rfl, fun h => hquote (congrArg _ h), fun h => hslash (congrArg _ h),
          hshown⟩)
      · rw [if_neg hshown]
        exact .inr (.inr rfl)

theorem ofCodePoint_of_ascii {c : Char} (h : c.toNat < 127) :
    Units.ofCodePoint c.toNat = [c.toNat] := by
  rw [Units.ofCodePoint, if_pos (by omega)]

/-- An escaped character is read as its units. -/
theorem stringBody_escape (c : Char) (opening : List Char) {rest : List Char} (hrest : rest ≠ [])
    {units : List Nat} {left : List Char} (hread : stringBody opening rest = .ok (units, left)) :
    stringBody opening (escape (.char c) ++ rest) =
      .ok (Units.ofCodePoint c.toNat ++ units, left) := by
  rcases escape_cases c with ⟨letter, hescape, hletter, hu, -, hc⟩ | ⟨hescape, hquote, hslash, hc⟩ |
    hescape
  · rw [hescape, ofCodePoint_of_ascii hc]
    exact stringBody_letter hletter hu opening rest hread
  · rw [hescape, ofCodePoint_of_ascii hc.2]
    exact stringBody_plain hquote hslash hc.1 opening rest hread
  · rw [hescape]
    exact stringBody_unitEscapes _ (fun _ => Units.lt_of_mem_ofCodePoint) opening hrest hread

theorem stringBody_quoted (cs : List Char) (opening left : List Char) :
    stringBody opening ((cs.map CodePoint.char).flatMap escape ++ '"' :: left) =
      .ok (cs.flatMap fun c => Units.ofCodePoint c.toNat, left) := by
  induction cs with
  | nil => exact stringBody.eq_2 opening left
  | cons c rest ih =>
      rw [List.map_cons, List.flatMap_cons, List.append_assoc]
      exact stringBody_escape c opening (by simp) ih

theorem eq_map_char_of_not_hasHalf {t : Text} (h : t.hasHalf = false) :
    t.points = t.chars.map CodePoint.char := by
  rw [Text.hasHalf, List.any_eq_false] at h
  rw [Text.chars, List.map_map]
  have hpoint : ∀ p ∈ t.points, p = (CodePoint.char ∘ CodePoint.toChar) p := by
    intro p hp
    cases p with
    | char c => rfl
    | half n => exact absurd rfl (h _ hp)
  exact (List.map_id t.points).symm.trans (List.map_congr_left hpoint)

theorem quote_append (t : Text) (left : List Char) :
    quote t ++ left = '"' :: (t.points.flatMap escape ++ '"' :: left) := by
  simp [quote]

/-- A text without halves is read back. -/
theorem string_quote {t : Text} (h : t.hasHalf = false) (left : List Char) :
    string (quote t ++ left) = .ok (t, left) := by
  have hpoints := eq_map_char_of_not_hasHalf h
  have hbody := stringBody_quoted t.chars (quote t ++ left) left
  rw [← hpoints] at hbody
  have hdrop : (quote t ++ left).drop 1 = t.points.flatMap escape ++ '"' :: left := by
    rw [quote_append, List.drop_succ_cons, List.drop_zero]
  have hunits :
      Text.mk (Units.points (t.chars.flatMap fun c => Units.ofCodePoint c.toNat)) = t := by
    rw [Units.points_flatMap, ← hpoints]
  rw [string, hdrop, hbody]
  exact congrArg (fun text => Except.ok (text, left)) hunits

theorem isPrintableAscii_of_mem_unitEscape {n : Nat} {c : Char} (h : c ∈ unitEscape n) :
    IsPrintableAscii c := by
  have hdigit : ∀ m < 16, IsPrintableAscii (Hex.digit m) := by decide
  have hlt (m : Nat) : m % 16 < 16 := Nat.mod_lt m (by decide)
  simp only [unitEscape, Quoted.hexDigits, List.nil_append, List.cons_append, List.mem_cons,
    List.not_mem_nil, or_false] at h
  rcases h with rfl | rfl | rfl | rfl | rfl | rfl
  · decide
  · decide
  all_goals exact hdigit _ (hlt _)

theorem isPrintableAscii_of_mem_quote {t : Text} (ht : t.hasHalf = false) {c : Char}
    (h : c ∈ quote t) : IsPrintableAscii c := by
  rw [quote, eq_map_char_of_not_hasHalf ht, List.mem_append, List.mem_cons, List.mem_singleton,
    List.flatMap_map, List.mem_flatMap] at h
  rcases h with (rfl | ⟨d, -, hd⟩) | rfl
  · decide
  · rcases escape_cases d with ⟨letter, hescape, -, -, hletter, -⟩ | ⟨hescape, -, -, hshown⟩ |
      hescape
    · rw [hescape, List.mem_cons, List.mem_singleton] at hd
      rcases hd with rfl | rfl
      · decide
      · exact hletter
    · rw [hescape, List.mem_singleton] at hd
      rw [hd]
      exact hshown
    · rw [hescape] at hd
      obtain ⟨n, -, hn⟩ := List.mem_flatMap.mp hd
      exact isPrintableAscii_of_mem_unitEscape hn
  · decide

/-! Whole numbers -/

/-- Nothing follows that could belong to a number. -/
def EndsNumber (left : List Char) : Prop :=
  ∀ c rest, left = c :: rest → c.isDigit = false ∧ c ≠ '.' ∧ c ≠ 'e' ∧ c ≠ 'E'

theorem fraction_of_endsNumber {left : List Char} (h : EndsNumber left) :
    fraction left = ([], left) :=
  fraction.eq_2 left fun rest hleft => (h '.' rest hleft).2.1 rfl

theorem exponent?_of_endsNumber {left : List Char} (h : EndsNumber left) :
    exponent? left = none := by
  cases left with
  | nil => rfl
  | cons c rest =>
      obtain ⟨-, -, hsmall, hlarge⟩ := h c rest rfl
      simp [exponent?, hsmall, hlarge]

theorem toDigits_eq_cons (n : Nat) :
    ∃ c rest, Nat.toDigits 10 n = c :: rest ∧ c.isDigit = true := by
  have hne : Nat.toDigits 10 n ≠ [] := Nat.toDigits_ne_nil
  obtain ⟨c, rest, hdigits⟩ := List.exists_cons_of_ne_nil hne
  have hmem : c ∈ Nat.toDigits 10 n := by
    rw [hdigits]
    exact List.mem_cons_self
  exact ⟨c, rest, hdigits, Nat.isDigit_of_mem_toDigits (by decide) (by decide) hmem⟩

theorem toDigits_head_ne_zero {n : Nat} (h : 0 < n) :
    ∃ c rest, Nat.toDigits 10 n = c :: rest ∧ c ≠ '0' := by
  induction n using Nat.strongRecOn with
  | ind n ih =>
      by_cases hlt : n < 10
      · have hall : ∀ m < 10, 0 < m → m.digitChar ≠ '0' := by decide
        exact ⟨n.digitChar, [], Nat.toDigits_of_lt_base hlt, hall n hlt h⟩
      · obtain ⟨c, rest, hdigits, hc⟩ := ih (n / 10) (by omega) (by omega)
        refine ⟨c, rest ++ [(n % 10).digitChar], ?_, hc⟩
        rw [Nat.toDigits_of_base_le (by decide) (Nat.le_of_not_lt hlt), hdigits, List.cons_append]

theorem wholePart_toDigits (n : Nat) {left : List Char} (h : EndsNumber left) :
    wholePart (Nat.toDigits 10 n ++ left) = (Nat.toDigits 10 n, left) := by
  have hdigit : ∀ c ∈ Nat.toDigits 10 n, c.isDigit = true := fun c hc =>
    Nat.isDigit_of_mem_toDigits (by decide) (by decide) hc
  rcases Nat.eq_zero_or_pos n with rfl | hpos
  · rw [Nat.toDigits_zero]
    rfl
  · obtain ⟨c, rest, hdigits, hc⟩ := toDigits_head_ne_zero hpos
    have hzero : ∀ more, Nat.toDigits 10 n ++ left = '0' :: more → False := by
      intro more hmore
      rw [hdigits, List.cons_append] at hmore
      exact hc (List.cons.inj hmore).1
    have hhead : left.takeWhile Char.isDigit = [] ∧ left.dropWhile Char.isDigit = left := by
      cases left with
      | nil => exact ⟨rfl, rfl⟩
      | cons d more =>
          have hd := (h d more rfl).1
          exact ⟨List.takeWhile_cons_of_neg (by simp [hd]),
            List.dropWhile_cons_of_neg (by simp [hd])⟩
    rw [wholePart.eq_2 _ hzero, List.takeWhile_append_of_pos hdigit,
      List.dropWhile_append_of_pos hdigit, hhead.1, hhead.2, List.append_nil]

theorem length_toDigits_le {n k : Nat} (hk : 0 < k) (h : n < Nat.pow 10 k) :
    ¬k < (Nat.toDigits 10 n).length := by
  rw [Nat.not_lt]
  exact (Nat.length_toDigits_le_iff (by decide) hk).mpr h

/-- A number is written with digits, and perhaps a sign. -/
theorem eq_or_isDigit_of_mem_intChars {n : Int} {c : Char} (h : c ∈ intChars n) :
    c = '-' ∨ c.isDigit = true := by
  have hdigit : ∀ m, c ∈ Nat.toDigits 10 m → c.isDigit = true := fun m hm =>
    Nat.isDigit_of_mem_toDigits (by decide) (by decide) hm
  cases n with
  | ofNat n => exact .inr (hdigit n h)
  | negSucc n => exact (List.mem_cons.mp h).imp_right (hdigit (n + 1))

theorem isPrintableAscii_of_mem_intChars {n : Int} {c : Char} (h : c ∈ intChars n) :
    IsPrintableAscii c := by
  rcases eq_or_isDigit_of_mem_intChars h with rfl | hc
  · decide
  · simp only [Char.isDigit, Bool.and_eq_true, decide_eq_true_eq] at hc
    have hlow : 48 ≤ c.toNat := hc.1
    have hhigh : c.toNat ≤ 57 := hc.2
    exact ⟨by omega, by omega⟩

theorem toList_toString (n : Int) : (toString n).toList = intChars n := by
  cases n with
  | ofNat n =>
      change (Nat.repr n).toList = _
      rw [Nat.repr, String.toList_ofList, intChars]
  | negSucc n =>
      change ("-" ++ Nat.repr (n + 1)).toList = _
      simp only [String.toList_append, Nat.repr, String.toList_ofList, intChars]
      rfl

/-- Numbers with the same digits and the same sign are the same. -/
theorem intChars_injective : Function.Injective intChars := by
  have htoDigits {m n : Nat} (h : Nat.toDigits 10 m = Nat.toDigits 10 n) : m = n := by
    rw [← @Nat.ofDigitChars_ten_toDigits m, h, Nat.ofDigitChars_ten_toDigits]
  have hsign (m n : Nat) : Nat.toDigits 10 m ≠ '-' :: Nat.toDigits 10 n := by
    obtain ⟨c, rest, hdigits, hc⟩ := toDigits_eq_cons m
    intro h
    rw [hdigits] at h
    rw [(List.cons.inj h).1] at hc
    exact absurd hc (by decide)
  intro m n h
  cases m with
  | ofNat m =>
      cases n with
      | ofNat n => exact congrArg Int.ofNat (htoDigits h)
      | negSucc n => exact absurd h (hsign m (n + 1))
  | negSucc m =>
      cases n with
      | ofNat n => exact absurd h.symm (hsign n (m + 1))
      | negSucc n => exact congrArg Int.negSucc (Nat.succ.inj (htoDigits (List.cons.inj h).2))

theorem number_toDigits {n : Nat} (hfit : n < Nat.pow 10 Digits.limit) {left : List Char}
    (h : EndsNumber left) :
    number (Nat.toDigits 10 n ++ left) = .ok (.int n, left) ∧
      number ('-' :: (Nat.toDigits 10 n ++ left)) = .ok (.int (-n), left) := by
  have hsign : ∀ rest, Nat.toDigits 10 n ++ left = '-' :: rest → False := by
    intro rest hrest
    obtain ⟨c, more, hdigits, hc⟩ := toDigits_eq_cons n
    rw [hdigits, List.cons_append] at hrest
    rw [(List.cons.inj hrest).1] at hc
    exact absurd hc (by decide)
  have hne : (Nat.toDigits 10 n).isEmpty = false := by
    rw [List.isEmpty_eq_false_iff]
    exact Nat.toDigits_ne_nil
  rw [number.eq_2 _ hsign, number.eq_1]
  simp only [wholePart_toDigits n h, hne, fraction_of_endsNumber h, exponent?_of_endsNumber h,
    length_toDigits_le (by decide) hfit, Nat.ofDigitChars_ten_toDigits, List.isEmpty_nil,
    Bool.not_true, Bool.false_eq_true, ↓reduceIte, and_self]

/-- A whole number that can be written is read back. -/
theorem number_intChars {n : Int} (hfit : Digits.fit n = true) {left : List Char}
    (h : EndsNumber left) : number (intChars n ++ left) = .ok (.int n, left) := by
  rw [Digits.fit, decide_eq_true_eq] at hfit
  cases n with
  | ofNat n => exact (number_toDigits hfit h).1
  | negSucc n => exact (number_toDigits hfit h).2

end LiveFeed.Json
