/-
What is read from JSON text can be put in words: a whole number that has too many digits to be
written again is not read, and neither are values that are nested too deeply.
-/
import LiveFeed.Proofs.Steps
import LiveFeed.Request.Message
import Mathlib.Data.List.TakeWhile

namespace LiveFeed

namespace Value

theorem wordlessWithin?_zero (v : Value) : wordlessWithin? 0 v = some .tooDeep := by
  cases v <;> rfl

@[simp] theorem wordlessWithin?_list (room : Nat) (items : List Value) :
    wordlessWithin? (room + 1) (.list items) = wordlessItems? room items := by
  simp [wordlessWithin?]

@[simp] theorem wordlessWithin?_object (room : Nat) (fields : List (Text × Value)) :
    wordlessWithin? (room + 1) (.object fields) = wordlessFields? room fields := by
  simp [wordlessWithin?]

@[simp] theorem wordlessWithin?_int (room : Nat) (n : Int) :
    wordlessWithin? (room + 1) (.int n) = if Digits.fit n then none else some .tooLong := by
  simp [wordlessWithin?]

theorem wordlessFields?_eq_none_iff {room : Nat} {fields : List (Text × Value)} :
    wordlessFields? room fields = none ↔ ∀ f ∈ fields, wordlessWithin? room f.2 = none := by
  induction fields with
  | nil => simp [wordlessFields?]
  | cons f rest ih => rw [wordlessFields?, Option.or_eq_none_iff, ih, List.forall_mem_cons]

theorem wordlessFields?_put {room : Nat} {known : List (Text × Value)}
    (hknown : wordlessFields? room known = none) (key : Text) {v : Value}
    (hv : wordlessWithin? room v = none) : wordlessFields? room (put known key v) = none := by
  rw [wordlessFields?_eq_none_iff] at hknown ⊢
  intro f hf
  rw [put] at hf
  split at hf
  · obtain ⟨g, hg, rfl⟩ := List.mem_map.mp hf
    split
    · exact hv
    · exact hknown g hg
  · rcases List.mem_append.mp hf with hold | hnew
    · exact hknown f hold
    · rw [List.mem_singleton.mp hnew]
      exact hv

mutual

/-- What can be put in words within some room can be put in words within more. -/
theorem wordlessWithin?_mono {room more : Nat} (hle : room ≤ more) :
    ∀ v : Value, wordlessWithin? room v = none → wordlessWithin? more v = none := by
  intro v h
  obtain ⟨room, rfl⟩ : ∃ n, room = n + 1 := by
    cases room with
    | zero => cases (wordlessWithin?_zero v).symm.trans h
    | succ n => exact ⟨n, rfl⟩
  obtain ⟨more, rfl⟩ : ∃ n, more = n + 1 := ⟨more - 1, by omega⟩
  have hinner : room ≤ more := Nat.le_of_succ_le_succ hle
  cases v with
  | list items =>
      rw [wordlessWithin?_list] at h ⊢
      exact wordlessItems?_mono hinner items h
  | object fields =>
      rw [wordlessWithin?_object] at h ⊢
      exact wordlessFields?_mono hinner fields h
  | int n => exact h
  | _ => rfl

theorem wordlessItems?_mono {room more : Nat} (hle : room ≤ more) :
    ∀ items : List Value, wordlessItems? room items = none → wordlessItems? more items = none
  | [], _ => rfl
  | v :: rest, h => by
      rw [wordlessItems?, Option.or_eq_none_iff] at h ⊢
      exact ⟨wordlessWithin?_mono hle v h.1, wordlessItems?_mono hle rest h.2⟩

theorem wordlessFields?_mono {room more : Nat} (hle : room ≤ more) :
    ∀ fields : List (Text × Value),
      wordlessFields? room fields = none → wordlessFields? more fields = none
  | [], _ => rfl
  | (_, v) :: rest, h => by
      rw [wordlessFields?, Option.or_eq_none_iff] at h ⊢
      exact ⟨wordlessWithin?_mono hle v h.1, wordlessFields?_mono hle rest h.2⟩

end

end Value

namespace Json

/-- So many digits make a number of no more digits. -/
theorem ofDigitChars_lt {cs : List Char} (h : ∀ c ∈ cs, c.isDigit = true) :
    Nat.ofDigitChars 10 cs 0 < Nat.pow 10 cs.length := by
  induction cs with
  | nil => decide
  | cons c rest ih =>
      obtain ⟨hc, hrest⟩ := List.forall_mem_cons.mp h
      have hdigit : c.toNat - '0'.toNat ≤ 9 := by
        simp only [Char.isDigit, Bool.and_eq_true, decide_eq_true_eq] at hc
        have hhigh : c.toNat ≤ 57 := hc.2
        change c.toNat - 48 ≤ 9
        omega
      rw [Nat.ofDigitChars_cons, Nat.ofDigitChars_eq_ofDigitChars_zero, Nat.mul_zero, Nat.zero_add]
      calc
        Nat.pow 10 rest.length * (c.toNat - '0'.toNat) + Nat.ofDigitChars 10 rest 0 <
            Nat.pow 10 rest.length * 9 + Nat.pow 10 rest.length :=
          Nat.add_lt_add_of_le_of_lt (Nat.mul_le_mul_left _ hdigit) (ih hrest)
        _ = Nat.pow 10 rest.length * 10 := (Nat.mul_succ _ 9).symm

/-- The whole part of a number consists of digits. -/
theorem isDigit_of_mem_wholePart {cs : List Char} {c : Char} (h : c ∈ (wholePart cs).1) :
    c.isDigit = true := by
  unfold wholePart at h
  split at h
  · rw [List.mem_singleton.mp h]
    rfl
  · exact List.mem_takeWhile_imp h

theorem natAbs_ofDigitChars_lt {whole : List Char} (hdigits : ∀ c ∈ whole, c.isDigit = true)
    {limit : Nat} (hlength : ¬limit < whole.length) (negative : Bool) :
    let n : Int := Nat.ofDigitChars 10 whole 0
    (if negative then -n else n).natAbs < Nat.pow 10 limit := by
  intro n
  have hsmall : n.natAbs < Nat.pow 10 limit :=
    Nat.lt_of_lt_of_le (ofDigitChars_lt hdigits)
      (Nat.pow_le_pow_right (by decide) (Nat.le_of_not_lt hlength))
  cases negative with
  | true =>
      rw [if_pos rfl, Int.natAbs_neg]
      exact hsmall
  | false => exact hsmall

/-- A whole number with too many digits is not read. -/
theorem worded_number (room : Nat) {cs left : List Char} {v : Value}
    (h : number cs = .ok (v, left)) : v.wordlessWithin? (room + 1) = none := by
  unfold number at h
  split at h
  split at h
  next _ unsigned _ _ whole _ hwhole =>
    have hdigits : ∀ c ∈ whole, c.isDigit = true := by
      intro c hc
      rw [show whole = (wholePart unsigned).1 by rw [hwhole]] at hc
      exact isDigit_of_mem_wholePart hc
    split at h
    · cases h
    · split at h
      dsimp only at h
      split at h
      · cases h
        rfl
      · split at h
        · cases h
          rfl
        · split at h
          · cases h
          · next hlength =>
              cases h
              rw [Value.wordlessWithin?_int, if_pos]
              exact decide_eq_true (natAbs_ofDigitChars_lt hdigits hlength _)

theorem worded_word (room : Nat) {cs left : List Char} {v : Value}
    (h : word? cs = some (v, left)) : v.wordlessWithin? (room + 1) = none := by
  obtain ⟨⟨word, found⟩, hword, hfound⟩ := List.exists_of_findSome?_eq_some h
  obtain ⟨rest, -, hv⟩ := Option.map_eq_some_iff.mp hfound
  cases hv
  have hall : ∀ w ∈ words, w.2.wordlessWithin? (room + 1) = none := by
    simp [words, Value.wordlessWithin?]
  exact hall _ hword

/-- Whatever value is read can be put in words, if there is room for it and one more. -/
def Worded (room : Nat) (result : Except Stop (Value × List Char)) : Prop :=
  ∀ v left, result = .ok (v, left) → v.wordlessWithin? (room + 1) = none

theorem worded_value_succ {fuel : Nat}
    (hitems : ∀ room cs, Worded (room + 1) (items fuel room cs))
    (hfields : ∀ room cs, Worded (room + 1) (fields fuel room [] cs)) (room : Nat)
    (cs : List Char) : Worded room (value (fuel + 1) room cs) := by
  intro v left h
  unfold value at h
  split at h
  · obtain ⟨_, -, hstring⟩ := bind_eq_ok_iff.mp h
    cases hstring
    rfl
  · split at h
    · cases h
    · split at h
      · cases h
        rfl
      · exact hfields _ _ v left h
  · split at h
    · cases h
    · split at h
      · cases h
        rfl
      · exact hitems _ _ v left h
  · split at h
    · next hword =>
        cases h
        exact worded_word room hword
    · exact worded_number room h

theorem worded_items_succ {fuel : Nat} (hvalues : ∀ room cs, Worded room (value fuel room cs))
    (hitems : ∀ room cs, Worded (room + 1) (items fuel room cs)) (room : Nat) (cs : List Char) :
    Worded (room + 1) (items (fuel + 1) room cs) := by
  intro v left h
  rw [items] at h
  obtain ⟨⟨first, rest⟩, hfirst, h⟩ := bind_eq_ok_iff.mp h
  have hsingle : (Value.list [first]).wordlessWithin? (room + 2) = none := by
    simp [Value.wordlessItems?, hvalues room cs first rest hfirst]
  dsimp only at h
  split at h
  · cases h
    exact hsingle
  · obtain ⟨⟨more, after⟩, hmore, h⟩ := bind_eq_ok_iff.mp h
    have hworded := hitems _ _ more after hmore
    split at h
    · next hlist =>
        cases h
        cases hlist
        rw [Value.wordlessWithin?_list] at hworded ⊢
        rw [Value.wordlessItems?, Option.or_eq_none_iff]
        exact ⟨hvalues room cs first rest hfirst, hworded⟩
    · cases h
      exact hsingle
  · cases h

theorem worded_fields_succ {fuel : Nat} (hvalues : ∀ room cs, Worded room (value fuel room cs))
    (hfields : ∀ room known cs, Value.wordlessFields? (room + 1) known = none →
      Worded (room + 1) (fields fuel room known cs))
    (room : Nat) (known : List (Text × Value)) (cs : List Char)
    (hknown : Value.wordlessFields? (room + 1) known = none) :
    Worded (room + 1) (fields (fuel + 1) room known cs) := by
  intro v left h
  unfold fields at h
  split at h
  · obtain ⟨⟨key, rest⟩, -, h⟩ := bind_eq_ok_iff.mp h
    dsimp only at h
    split at h
    · obtain ⟨⟨w, after⟩, hw, h⟩ := bind_eq_ok_iff.mp h
      have hput := Value.wordlessFields?_put hknown key (hvalues _ _ w after hw)
      dsimp only at h
      split at h
      · cases h
        rwa [Value.wordlessWithin?_object]
      · exact hfields _ _ _ hput v left h
      · cases h
    · cases h
  · cases h

/-- Every value that the reader returns can be put in words, whatever the fuel. -/
theorem worded (fuel : Nat) :
    (∀ room cs, Worded room (value fuel room cs)) ∧
      (∀ room cs, Worded (room + 1) (items fuel room cs)) ∧
      ∀ room known cs, Value.wordlessFields? (room + 1) known = none →
        Worded (room + 1) (fields fuel room known cs) := by
  induction fuel with
  | zero => exact ⟨fun _ _ => nofun, fun _ _ => nofun, fun _ _ _ _ => nofun⟩
  | succ fuel ih =>
      obtain ⟨hvalues, hitems, hfields⟩ := ih
      exact ⟨worded_value_succ hitems fun room cs => hfields room [] cs rfl,
        worded_items_succ hvalues hitems, worded_fields_succ hvalues hfields⟩

variable [Limits]

/-- What is read can be put in words with room for one more value inside the other. -/
theorem wordless_of_read {text : String} {v : Value} (h : read text = .ok v) :
    v.wordlessWithin? (Limits.readDepth + 1) = none := by
  have hchars := mapError_eq_ok_iff.mp h
  unfold readChars at hchars
  split at hchars
  · cases hchars
  · obtain ⟨⟨w, rest⟩, hw, hend⟩ := bind_eq_ok_iff.mp hchars
    dsimp only at hend
    split at hend
    · cases hend
      exact (worded _).1 _ _ _ _ hw
    · cases hend

end Json

/-- What stands in the fields that octets hold can be put in words. -/
theorem Wire.wordless_of_decode [Limits] {octets : Bytes} {fields : List (Text × Value)}
    (h : decode octets = .ok fields) : ∀ f ∈ fields, f.2.wordless? = none := by
  obtain ⟨text, -, h⟩ := bind_eq_ok_iff.mp h
  obtain ⟨v, hv, h⟩ := bind_eq_ok_iff.mp h
  have hworded := Json.wordless_of_read (mapError_eq_ok_iff.mp hv)
  split at h
  · cases h
    rw [Value.wordlessWithin?_object, Value.wordlessFields?_eq_none_iff] at hworded
    intro f hf
    exact Value.wordlessWithin?_mono Limits.readDepth_le_wordDepth _ (hworded f hf)
  · cases h

end LiveFeed
