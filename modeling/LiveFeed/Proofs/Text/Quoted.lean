/-
Octets between quotes.  Each of them is shown by printable characters, from which it can be told
whatever comes after them; octets that are shown alike are therefore the same.
-/
import LiveFeed.Proofs.Text.Ascii
import LiveFeed.Proofs.Text.Hex
import LiveFeed.Text.Quoted
import Mathlib.Logic.Function.Defs

namespace LiveFeed.Quoted

/-- The character that stands for an octet. -/
def octetChar (b : UInt8) : Char := Char.ofNat b.toNat

theorem toNat_octetChar (b : UInt8) : (octetChar b).toNat = b.toNat := by
  have hlt : b.toNat < 256 := b.toNat_lt
  have hvalid : b.toNat.isValidChar := .inl (by omega)
  rw [octetChar, Char.ofNat, dif_pos hvalid]
  rfl

theorem octetChar_injective : Function.Injective octetChar := by
  intro a b h
  apply UInt8.toNat_inj.mp
  rw [← toNat_octetChar, h, toNat_octetChar]

/-- An octet between quotes. -/
def octetEscape (quote : Char) (b : UInt8) : List Char :=
  escape (fun c => c == quote || c == '\\' || false) (fun c => 32 ≤ c.toNat && c.toNat < 127)
    (.char (octetChar b))

theorem toList_bytes (bs : Bytes) :
    ∃ quote, (quote = '"' ∨ quote = '\'') ∧
      (bytes bs).toList = 'b' :: quote :: (bs.flatMap (octetEscape quote) ++ [quote]) := by
  have hquote (single double : Bool) :
      quoteFor single double = '"' ∨ quoteFor single double = '\'' := by
    rw [quoteFor]
    split
    · exact .inl rfl
    · exact .inr rfl
  rw [bytes, octets, String.toList_ofList, enclose, List.flatMap_map, List.cons_append]
  exact ⟨_, hquote _ _, rfl⟩

/-- The character that the one after a backslash stands for. -/
def meant : Char → Char
  | 't' => '\t'
  | 'n' => '\n'
  | 'r' => '\r'
  | c => c

/-- An octet is shown by a letter after a backslash, by its character, or by its two digits. -/
theorem octetEscape_cases {quote : Char} (hquote : quote = '"' ∨ quote = '\'') (b : UInt8) :
    (∃ letter, octetEscape quote b = ['\\', letter] ∧ meant letter = octetChar b ∧ letter ≠ 'x' ∧
      IsPrintableAscii letter) ∨
    (octetEscape quote b = [octetChar b] ∧ octetChar b ≠ '\\' ∧
      IsPrintableAscii (octetChar b)) ∨
    octetEscape quote b =
      ['\\', 'x', Hex.digit (b.toNat / 16), Hex.digit (b.toNat % 16)] := by
  have hshort : (octetChar b).toNat ≤ 0xFF := by
    rw [toNat_octetChar]
    exact Nat.le_of_lt_succ b.toNat_lt
  rw [octetEscape, escape]
  generalize hc : octetChar b = c
  by_cases hmarked : (c == quote || c == '\\' || false) = true
  · rw [if_pos hmarked]
    have hletter : c = '"' ∨ c = '\'' ∨ c = '\\' := by
      simp only [Bool.or_false, Bool.or_eq_true, beq_iff_eq] at hmarked
      rcases hquote with rfl | rfl
      · exact hmarked.imp_right .inr
      · exact .inr hmarked
    rcases hletter with rfl | rfl | rfl
    · exact .inl ⟨'"', rfl, rfl, by decide, by decide⟩
    · exact .inl ⟨'\'', rfl, rfl, by decide, by decide⟩
    · exact .inl ⟨'\\', rfl, rfl, by decide, by decide⟩
  rw [if_neg hmarked]
  by_cases htab : c = '\t'
  · rw [if_pos htab]
    exact .inl ⟨'t', rfl, htab.symm, by decide, by decide⟩
  rw [if_neg htab]
  by_cases hfeed : c = '\n'
  · rw [if_pos hfeed]
    exact .inl ⟨'n', rfl, hfeed.symm, by decide, by decide⟩
  rw [if_neg hfeed]
  by_cases hreturn : c = '\r'
  · rw [if_pos hreturn]
    exact .inl ⟨'r', rfl, hreturn.symm, by decide, by decide⟩
  rw [if_neg hreturn]
  by_cases hshown : (decide (32 ≤ c.toNat) && decide (c.toNat < 127)) = true
  · rw [if_pos hshown]
    rw [Bool.and_eq_true, decide_eq_true_eq, decide_eq_true_eq] at hshown
    refine .inr (.inl ⟨rfl, ?_, hshown⟩)
    rintro rfl
    simp at hmarked
  · rw [if_neg hshown, numericEscape, if_pos (hc ▸ hshort), ← hc, toNat_octetChar]
    refine .inr (.inr ?_)
    rw [hexDigits, hexDigits, hexDigits, List.nil_append, Nat.mod_eq_of_lt (Hex.high_lt b)]
    rfl

/-- Tells the first of the octets that follow, and what comes after it. -/
def unescape : List Char → Option (Char × List Char)
  | [] => none
  | '\\' :: 'x' :: high :: low :: rest => do
      return (Char.ofNat (16 * (← Hex.value? high) + (← Hex.value? low)), rest)
  | '\\' :: letter :: rest => some (meant letter, rest)
  | c :: rest => some (c, rest)

theorem unescape_octetEscape {quote : Char} (hquote : quote = '"' ∨ quote = '\'') (b : UInt8)
    (rest : List Char) :
    unescape (octetEscape quote b ++ rest) = some (octetChar b, rest) := by
  rcases octetEscape_cases hquote b with ⟨letter, hescape, hletter, hx, -⟩ | ⟨hescape, hslash, -⟩ |
    hescape
  · rw [hescape, ← hletter]
    exact unescape.eq_3 letter rest fun _ _ _ h => absurd h hx
  · rw [hescape]
    exact unescape.eq_4 _ _ (fun _ _ _ h => absurd h hslash) fun _ _ h => absurd h hslash
  · have hsum : 16 * (b.toNat / 16) + b.toNat % 16 = b.toNat := by omega
    rw [hescape, List.cons_append, List.cons_append, List.cons_append, List.cons_append,
      List.nil_append, unescape, Hex.value?_digit (Hex.high_lt b), Hex.value?_digit (Hex.low_lt b)]
    simp only [Option.bind_eq_bind, Option.bind_some, hsum]
    rfl

/-- A quote alone shows no octet. -/
theorem octetEscape_append_ne {quote : Char} (hquote : quote = '"' ∨ quote = '\'') (b : UInt8)
    (bs : Bytes) :
    octetEscape quote b ++ (bs.flatMap (octetEscape quote) ++ [quote]) ≠ [quote] := by
  intro h
  have hread := unescape_octetEscape hquote b (bs.flatMap (octetEscape quote) ++ [quote])
  have halone : unescape [quote] = some (quote, []) := by
    rcases hquote with rfl | rfl
    · rfl
    · rfl
  rw [h, halone, Option.some.injEq, Prod.mk.injEq] at hread
  exact List.append_ne_nil_of_right_ne_nil _ (List.cons_ne_nil _ _) hread.2.symm

/-- What is shown of octets, with a quote after it, tells the octets. -/
theorem eq_of_flatMap_octetEscape {quote : Char} (hquote : quote = '"' ∨ quote = '\'')
    {as bs : Bytes}
    (h : as.flatMap (octetEscape quote) ++ [quote] = bs.flatMap (octetEscape quote) ++ [quote]) :
    as = bs := by
  induction as generalizing bs with
  | nil =>
      cases bs with
      | nil => rfl
      | cons b more =>
          rw [List.flatMap_cons, List.append_assoc] at h
          exact absurd h.symm (octetEscape_append_ne hquote b more)
  | cons a rest ih =>
      cases bs with
      | nil =>
          rw [List.flatMap_cons, List.append_assoc] at h
          exact absurd h (octetEscape_append_ne hquote a rest)
      | cons b more =>
          rw [List.flatMap_cons, List.flatMap_cons, List.append_assoc, List.append_assoc] at h
          have hread := congrArg unescape h
          rw [unescape_octetEscape hquote, unescape_octetEscape hquote, Option.some.injEq,
            Prod.mk.injEq] at hread
          rw [octetChar_injective hread.1, ih hread.2]

/-- Octets that are shown alike are the same. -/
theorem bytes_injective : Function.Injective bytes := by
  intro as bs h
  obtain ⟨quote, hquote, has⟩ := toList_bytes as
  obtain ⟨other, -, hbs⟩ := toList_bytes bs
  rw [h, hbs, List.cons.injEq, List.cons.injEq] at has
  obtain ⟨-, rfl, hshown⟩ := has
  exact (eq_of_flatMap_octetEscape hquote hshown).symm

theorem isPrintableAscii_of_mem_octetEscape {quote : Char}
    (hquote : quote = '"' ∨ quote = '\'') {b : UInt8} {c : Char} (h : c ∈ octetEscape quote b) :
    IsPrintableAscii c := by
  have hdigit : ∀ n < 16, IsPrintableAscii (Hex.digit n) := by decide
  rcases octetEscape_cases hquote b with ⟨letter, hescape, -, -, hletter⟩ | ⟨hescape, -, hshown⟩ |
    hescape
  · rw [hescape, List.mem_cons, List.mem_singleton] at h
    rcases h with rfl | rfl
    · decide
    · exact hletter
  · rw [hescape, List.mem_singleton] at h
    rw [h]
    exact hshown
  · simp only [hescape, List.mem_cons, List.not_mem_nil, or_false] at h
    rcases h with rfl | rfl | rfl | rfl
    · decide
    · decide
    · exact hdigit _ (Hex.high_lt b)
    · exact hdigit _ (Hex.low_lt b)

/-- Octets are shown by printable characters. -/
theorem isPrintableAscii_of_mem_bytes {bs : Bytes} {c : Char} (h : c ∈ (bytes bs).toList) :
    IsPrintableAscii c := by
  obtain ⟨quote, hquote, hbytes⟩ := toList_bytes bs
  have hprintable : IsPrintableAscii quote := by
    rcases hquote with rfl | rfl
    · decide
    · decide
  rw [hbytes, List.mem_cons, List.mem_cons, List.mem_append, List.mem_singleton,
    List.mem_flatMap] at h
  rcases h with rfl | rfl | ⟨b, -, hc⟩ | rfl
  · decide
  · exact hprintable
  · exact isPrintableAscii_of_mem_octetEscape hquote hc
  · exact hprintable

end LiveFeed.Quoted
