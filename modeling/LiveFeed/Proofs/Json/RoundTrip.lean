/-
Values are read back from their JSON text.  This holds of null, truth values, whole numbers, texts
without halves, lists, and objects with distinct keys, whatever stands behind the text and however
deeply they are nested, as long as writing does not stop and there is room for them when they are
read.
-/
import LiveFeed.Proofs.Json.Scalar

namespace LiveFeed

namespace Value

mutual

/-- Whether a value is made of null, truth values, whole numbers, texts without halves, lists, and
objects with distinct keys. -/
def isPlain : Value → Bool
  | .null => true
  | .bool _ => true
  | .int _ => true
  | .str t => !t.hasHalf
  | .list items => arePlain items
  | .object fields => decide (fields.map (·.1)).Nodup && fieldsArePlain fields
  | _ => false

/-- Whether all values of a list are plain. -/
def arePlain : List Value → Bool
  | [] => true
  | v :: rest => isPlain v && arePlain rest

/-- Whether all keys and values of an object are plain. -/
def fieldsArePlain : List (Text × Value) → Bool
  | [] => true
  | (key, v) :: rest => !key.hasHalf && isPlain v && fieldsArePlain rest

end

mutual

/-- How many lists and objects of a value lie within each other. -/
def depth : Value → Nat
  | .list items => depthOfItems items + 1
  | .object fields => depthOfFields fields + 1
  | _ => 0

/-- The depth of the deepest item. -/
def depthOfItems : List Value → Nat
  | [] => 0
  | v :: rest => max v.depth (depthOfItems rest)

/-- The depth of the deepest value in an object. -/
def depthOfFields : List (Text × Value) → Nat
  | [] => 0
  | (_, v) :: rest => max v.depth (depthOfFields rest)

end

theorem put_of_new {known : List (Text × Value)} {key : Text} (h : key ∉ known.map (·.1))
    (v : Value) : put known key v = known ++ [(key, v)] := by
  rw [put, if_neg]
  intro hany
  obtain ⟨field, hfield, hkey⟩ := List.any_eq_true.mp hany
  exact h (List.mem_map.mpr ⟨field, hfield, of_decide_eq_true hkey⟩)

end Value

namespace Json

open Value

/-! What has been written without a stop -/

theorem Written.ofList_injective {xs ys : List Char} (h : Written.ofList xs = Written.ofList ys) :
    xs = ys := congrArg Written.chars h

theorem Written.followedBy_eq_ofList {a b : Written} {cs : List Char}
    (h : a.followedBy b = .ofList cs) :
    ∃ xs ys, a = .ofList xs ∧ b = .ofList ys ∧ cs = xs ++ ys := by
  obtain ⟨xs, stopped⟩ := a
  cases stopped with
  | some problem => simp [followedBy, ofList] at h
  | none =>
      obtain ⟨ys, stopped⟩ := b
      simp only [followedBy, ofList, Written.mk.injEq] at h
      exact ⟨xs, ys, rfl, congrArg (Written.mk ys) h.2, h.1.symm⟩

/-! One step of the reader -/

theorem skip_of_not_blank {c : Char} (h : isBlank c = false) (rest : List Char) :
    skip (c :: rest) = c :: rest := by
  rw [skip, List.dropWhile_cons_of_neg (by simp [h])]

theorem skip_space {c : Char} (h : isBlank c = false) (rest : List Char) :
    skip (' ' :: c :: rest) = c :: rest := by
  rw [skip, List.dropWhile_cons_of_pos (by decide)]
  exact skip_of_not_blank h rest

theorem value_text (fuel room : Nat) {t : Text} (h : t.hasHalf = false) (left : List Char) :
    value (fuel + 1) room (quote t ++ left) = .ok (.str t, left) := by
  have hstring := string_quote h left
  rw [quote_append] at hstring ⊢
  rw [value, hstring]
  rfl

theorem value_list_nil (fuel room : Nat) (left : List Char) :
    value (fuel + 1) (room + 1) ('[' :: ']' :: left) = .ok (.list [], left) := by
  rw [value]
  rfl

theorem value_list_cons (fuel room : Nat) {c : Char} (hblank : isBlank c = false) (hc : c ≠ ']')
    (rest : List Char) :
    value (fuel + 1) (room + 1) ('[' :: c :: rest) = items fuel room (c :: rest) := by
  rw [value]
  simp only [skip_of_not_blank hblank]
  split
  · rename_i heq
    exact absurd (List.cons.inj heq).1 hc
  · rfl

theorem value_object_nil (fuel room : Nat) (left : List Char) :
    value (fuel + 1) (room + 1) ('\x7b' :: '\x7d' :: left) = .ok (.object [], left) := by
  rw [value]
  rfl

theorem value_object_cons (fuel room : Nat) (rest : List Char) :
    value (fuel + 1) (room + 1) ('\x7b' :: '"' :: rest) = fields fuel room [] ('"' :: rest) := by
  rw [value]
  rfl

theorem items_last {fuel room : Nat} {cs left : List Char} {v : Value}
    (hv : value fuel room cs = .ok (v, ']' :: left)) :
    items (fuel + 1) room cs = .ok (.list [v], left) := by
  rw [items, hv]
  rfl

theorem items_more {fuel room : Nat} {cs rest left : List Char} {c : Char} {v : Value}
    {more : List Value} (hv : value fuel room cs = .ok (v, ',' :: ' ' :: c :: rest))
    (hblank : isBlank c = false) (hmore : items fuel room (c :: rest) = .ok (.list more, left)) :
    items (fuel + 1) room cs = .ok (.list (v :: more), left) := by
  have hskip : skip (',' :: ' ' :: c :: rest) = ',' :: ' ' :: c :: rest :=
    skip_of_not_blank (by decide) _
  rw [items, hv]
  simp only [bind, Except.bind, hskip, skip_space hblank, hmore]
  rfl

theorem fields_last {fuel room : Nat} (known : List (Text × Value)) {key : Text} {c : Char}
    {rest left : List Char} {v : Value} (hkey : key.hasHalf = false) (hblank : isBlank c = false)
    (hv : value fuel room (c :: rest) = .ok (v, '\x7d' :: left)) :
    fields (fuel + 1) room known (quote key ++ ':' :: ' ' :: c :: rest) =
      .ok (.object (put known key v), left) := by
  have hstring := string_quote hkey (':' :: ' ' :: c :: rest)
  have hskip : skip (':' :: ' ' :: c :: rest) = ':' :: ' ' :: c :: rest :=
    skip_of_not_blank (by decide) _
  rw [quote_append] at hstring ⊢
  rw [fields, hstring]
  simp only [bind, Except.bind, hskip, skip_space hblank, hv]
  rfl

theorem fields_more {fuel room : Nat} (known : List (Text × Value)) {key : Text} {c d : Char}
    {rest more left : List Char} {v : Value} {result : Value} (hkey : key.hasHalf = false)
    (hblank : isBlank c = false) (hmoreBlank : isBlank d = false)
    (hv : value fuel room (c :: rest) = .ok (v, ',' :: ' ' :: d :: more))
    (hmore : fields fuel room (put known key v) (d :: more) = .ok (result, left)) :
    fields (fuel + 1) room known (quote key ++ ':' :: ' ' :: c :: rest) = .ok (result, left) := by
  have hstring := string_quote hkey (':' :: ' ' :: c :: rest)
  have hskip : skip (':' :: ' ' :: c :: rest) = ':' :: ' ' :: c :: rest :=
    skip_of_not_blank (by decide) _
  have hcomma : skip (',' :: ' ' :: d :: more) = ',' :: ' ' :: d :: more :=
    skip_of_not_blank (by decide) _
  rw [quote_append] at hstring ⊢
  rw [fields, hstring]
  simp only [bind, Except.bind, hskip, skip_space hblank, hv, hcomma, skip_space hmoreBlank, hmore]

theorem after?_of_ne {w c : Char} (h : c ≠ w) (ws rest : List Char) :
    after? (w :: ws) (c :: rest) = none := by
  rw [after?, if_neg h.symm]

/-- A number begins with a sign or a digit. -/
def BeginsNumber (c : Char) : Prop := c = '-' ∨ c.isDigit = true

theorem BeginsNumber.ne {c : Char} (h : BeginsNumber c) {d : Char} (hsign : d ≠ '-')
    (hdigit : d.isDigit = false) : c ≠ d := by
  rintro rfl
  rcases h with rfl | h
  · exact hsign rfl
  · rw [hdigit] at h
    exact absurd h (by decide)

theorem word?_of_beginsNumber {c : Char} (h : BeginsNumber c) {rest : List Char}
    (hrest : c = '-' → ∀ more, rest ≠ 'I' :: more) : word? (c :: rest) = none := by
  have hinfinity : after? "-Infinity".toList (c :: rest) = none := by
    by_cases hc : c = '-'
    · cases rest with
      | nil => simp [after?]
      | cons d more =>
          have hd : d ≠ 'I' := fun hd => hrest hc more (by rw [hd])
          simp [after?, hd.symm]
    · simp [after?_of_ne hc]
  have hn : c ≠ 'n' := h.ne (by decide) (by decide)
  have ht : c ≠ 't' := h.ne (by decide) (by decide)
  have hf : c ≠ 'f' := h.ne (by decide) (by decide)
  have hN : c ≠ 'N' := h.ne (by decide) (by decide)
  have hI : c ≠ 'I' := h.ne (by decide) (by decide)
  simpa [word?, words, after?_of_ne hn, after?_of_ne ht, after?_of_ne hf, after?_of_ne hN,
    after?_of_ne hI] using hinfinity

theorem value_of_beginsNumber (fuel room : Nat) {c : Char} (h : BeginsNumber c)
    {rest : List Char} (hrest : c = '-' → ∀ more, rest ≠ 'I' :: more) :
    value (fuel + 1) room (c :: rest) = number (c :: rest) := by
  have hquote : c ≠ '"' := h.ne (by decide) (by decide)
  have hbrace : c ≠ '\x7b' := h.ne (by decide) (by decide)
  have hbracket : c ≠ '[' := h.ne (by decide) (by decide)
  unfold value
  split
  · exact absurd (List.cons.inj ‹_›).1 hquote
  · exact absurd (List.cons.inj ‹_›).1 hbrace
  · exact absurd (List.cons.inj ‹_›).1 hbracket
  · rw [word?_of_beginsNumber h hrest]

theorem intChars_eq_cons (n : Int) : ∃ c rest, intChars n = c :: rest ∧ BeginsNumber c ∧
    (c = '-' → ∀ left more, rest ++ left ≠ 'I' :: more) := by
  cases n with
  | ofNat n =>
      obtain ⟨c, rest, hdigits, hc⟩ := toDigits_eq_cons n
      refine ⟨c, rest, hdigits, .inr hc, ?_⟩
      rintro rfl
      exact absurd hc (by decide)
  | negSucc n =>
      obtain ⟨c, rest, hdigits, hc⟩ := toDigits_eq_cons (n + 1)
      refine ⟨'-', c :: rest, congrArg (List.cons '-') hdigits, .inl rfl, ?_⟩
      intro _ left more heq
      rw [(List.cons.inj heq).1] at hc
      exact absurd hc (by decide)

/-- A whole number that can be written is read as a value. -/
theorem value_number (fuel room : Nat) {n : Int} (hfit : Digits.fit n = true) {left : List Char}
    (h : EndsNumber left) : value (fuel + 1) room (intChars n ++ left) = .ok (.int n, left) := by
  have hnumber := number_intChars hfit h
  obtain ⟨c, rest, hchars, hc, hrest⟩ := intChars_eq_cons n
  rw [hchars, List.cons_append] at hnumber ⊢
  rw [value_of_beginsNumber fuel room hc fun hsign => hrest hsign left, hnumber]

theorem value_null (fuel room : Nat) (left : List Char) :
    value (fuel + 1) room ("null".toList ++ left) = .ok (.null, left) := by
  simp [value, word?, words, after?]

theorem value_bool (fuel room : Nat) (left : List Char) :
    value (fuel + 1) room ("true".toList ++ left) = .ok (.bool true, left) ∧
      value (fuel + 1) room ("false".toList ++ left) = .ok (.bool false, left) := by
  simp [value, word?, words, after?]

/-! What has been written of a value -/

variable {room : Nat} {cs : List Char}

theorem eq_quote_of_writeWithin {t : Text} (h : writeWithin room (.str t) = .ofList cs) :
    cs = quote t := by
  rw [writeWithin] at h
  exact (Written.ofList_injective h).symm

theorem eq_intChars_of_writeWithin {n : Int} (h : writeWithin room (.int n) = .ofList cs) :
    Digits.fit n = true ∧ cs = intChars n := by
  rw [writeWithin] at h
  by_cases hfit : Digits.fit n = true
  · rw [if_pos hfit] at h
    exact ⟨hfit, (Written.ofList_injective h).symm⟩
  · rw [if_neg hfit] at h
    exact absurd (congrArg Written.stopped h) nofun

theorem eq_bracket_of_writeWithin {items : List Value}
    (h : writeWithin room (.list items) = .ofList cs) :
    ∃ inner ys, room = inner + 1 ∧ writeItems inner items = .ofList ys ∧ cs = '[' :: ys := by
  rw [writeWithin] at h
  cases room with
  | zero => exact absurd (congrArg Written.stopped h) nofun
  | succ inner =>
      rw [if_neg (Nat.succ_ne_zero inner), Nat.add_sub_cancel] at h
      obtain ⟨xs, ys, hxs, hys, rfl⟩ := Written.followedBy_eq_ofList h
      rw [← Written.ofList_injective hxs]
      exact ⟨inner, ys, rfl, hys, rfl⟩

theorem eq_brace_of_writeWithin {fields : List (Text × Value)}
    (h : writeWithin room (.object fields) = .ofList cs) :
    ∃ inner ys, room = inner + 1 ∧ writeFields inner fields = .ofList ys ∧ cs = '\x7b' :: ys := by
  rw [writeWithin] at h
  cases room with
  | zero => exact absurd (congrArg Written.stopped h) nofun
  | succ inner =>
      rw [if_neg (Nat.succ_ne_zero inner), Nat.add_sub_cancel] at h
      obtain ⟨xs, ys, hxs, hys, rfl⟩ := Written.followedBy_eq_ofList h
      rw [← Written.ofList_injective hxs]
      exact ⟨inner, ys, rfl, hys, rfl⟩

theorem eq_of_writeItems_single {v : Value} (h : writeItems room [v] = .ofList cs) :
    ∃ xs, writeWithin room v = .ofList xs ∧ cs = xs ++ [']'] := by
  rw [writeItems] at h
  obtain ⟨xs, ys, hxs, hys, rfl⟩ := Written.followedBy_eq_ofList h
  rw [← Written.ofList_injective hys]
  exact ⟨xs, hxs, rfl⟩

theorem eq_of_writeItems_cons {v w : Value} {rest : List Value}
    (h : writeItems room (v :: w :: rest) = .ofList cs) :
    ∃ xs ys, writeWithin room v = .ofList xs ∧ writeItems room (w :: rest) = .ofList ys ∧
      cs = xs ++ ',' :: ' ' :: ys := by
  rw [writeItems] at h
  · obtain ⟨xs, zs, hxs, hzs, rfl⟩ := Written.followedBy_eq_ofList h
    obtain ⟨comma, ys, hcomma, hys, rfl⟩ := Written.followedBy_eq_ofList hzs
    rw [← Written.ofList_injective hcomma]
    exact ⟨xs, ys, hxs, hys, rfl⟩
  · nofun

theorem eq_of_writeFields_single {key : Text} {v : Value}
    (h : writeFields room [(key, v)] = .ofList cs) :
    ∃ xs, writeWithin room v = .ofList xs ∧
      cs = quote key ++ ':' :: ' ' :: (xs ++ ['\x7d']) := by
  rw [writeFields] at h
  obtain ⟨front, zs, hfront, hzs, rfl⟩ := Written.followedBy_eq_ofList h
  obtain ⟨xs, ys, hxs, hys, rfl⟩ := Written.followedBy_eq_ofList hzs
  rw [← Written.ofList_injective hfront, ← Written.ofList_injective hys]
  exact ⟨xs, hxs, by simp⟩

theorem eq_of_writeFields_cons {key : Text} {v : Value} {field : Text × Value}
    {rest : List (Text × Value)} (h : writeFields room ((key, v) :: field :: rest) = .ofList cs) :
    ∃ xs ys, writeWithin room v = .ofList xs ∧ writeFields room (field :: rest) = .ofList ys ∧
      cs = quote key ++ ':' :: ' ' :: (xs ++ ',' :: ' ' :: ys) := by
  rw [writeFields] at h
  · obtain ⟨front, zs, hfront, hzs, rfl⟩ := Written.followedBy_eq_ofList h
    obtain ⟨xs, more, hxs, hmore, rfl⟩ := Written.followedBy_eq_ofList hzs
    obtain ⟨comma, ys, hcomma, hys, rfl⟩ := Written.followedBy_eq_ofList hmore
    rw [← Written.ofList_injective hfront, ← Written.ofList_injective hcomma]
    exact ⟨xs, ys, hxs, hys, by simp⟩
  · nofun

/-- What is written of a value begins with no blank and no closing bracket. -/
theorem eq_cons_of_writeWithin {v : Value} (hplain : v.isPlain = true)
    (h : writeWithin room v = .ofList cs) :
    ∃ c rest, cs = c :: rest ∧ isBlank c = false ∧ c ≠ ']' := by
  cases v with
  | null =>
      rw [writeWithin] at h
      rw [← Written.ofList_injective h]
      exact ⟨'n', "ull".toList, by simp, by decide, by decide⟩
  | bool b =>
      cases b with
      | true =>
          rw [writeWithin] at h
          rw [← Written.ofList_injective h]
          exact ⟨'t', "rue".toList, by simp, by decide, by decide⟩
      | false =>
          rw [writeWithin] at h
          rw [← Written.ofList_injective h]
          exact ⟨'f', "alse".toList, by simp, by decide, by decide⟩
  | int n =>
      obtain ⟨c, rest, hchars, hc, -⟩ := intChars_eq_cons n
      rw [(eq_intChars_of_writeWithin h).2, hchars]
      refine ⟨c, rest, rfl, ?_, hc.ne (by decide) (by decide)⟩
      have hspace : c ≠ ' ' := hc.ne (by decide) (by decide)
      have htab : c ≠ '\t' := hc.ne (by decide) (by decide)
      have hfeed : c ≠ '\n' := hc.ne (by decide) (by decide)
      have hreturn : c ≠ '\r' := hc.ne (by decide) (by decide)
      simp [isBlank, hspace, htab, hfeed, hreturn]
  | str t =>
      rw [eq_quote_of_writeWithin h]
      exact ⟨'"', _, rfl, by decide, by decide⟩
  | list items =>
      obtain ⟨_, ys, -, -, rfl⟩ := eq_bracket_of_writeWithin h
      exact ⟨'[', ys, rfl, by decide, by decide⟩
  | object fields =>
      obtain ⟨_, ys, -, -, rfl⟩ := eq_brace_of_writeWithin h
      exact ⟨'\x7b', ys, rfl, by decide, by decide⟩
  | float _ => exact absurd hplain nofun
  | bytes _ _ => exact absurd hplain nofun
  | instant _ => exact absurd hplain nofun
  | span _ => exact absurd hplain nofun

theorem eq_cons_of_writeItems {v : Value} {rest : List Value} (hplain : v.isPlain = true)
    (h : writeItems room (v :: rest) = .ofList cs) :
    ∃ c more, cs = c :: more ∧ isBlank c = false ∧ c ≠ ']' := by
  cases rest with
  | nil =>
      obtain ⟨xs, hxs, rfl⟩ := eq_of_writeItems_single h
      obtain ⟨c, more, rfl, hc⟩ := eq_cons_of_writeWithin hplain hxs
      exact ⟨c, _, rfl, hc⟩
  | cons w rest =>
      obtain ⟨xs, ys, hxs, -, rfl⟩ := eq_of_writeItems_cons h
      obtain ⟨c, more, rfl, hc⟩ := eq_cons_of_writeWithin hplain hxs
      exact ⟨c, _, rfl, hc⟩

theorem eq_cons_of_writeFields {field : Text × Value} {rest : List (Text × Value)}
    (h : writeFields room (field :: rest) = .ofList cs) : ∃ more, cs = '"' :: more := by
  cases rest with
  | nil =>
      obtain ⟨xs, -, rfl⟩ := eq_of_writeFields_single h
      exact ⟨_, quote_append _ _⟩
  | cons w rest =>
      obtain ⟨xs, ys, -, -, rfl⟩ := eq_of_writeFields_cons h
      exact ⟨_, quote_append _ _⟩

theorem endsNumber_cons {c : Char} (h : c.isDigit = false ∧ c ≠ '.' ∧ c ≠ 'e' ∧ c ≠ 'E')
    (rest : List Char) : EndsNumber (c :: rest) := by
  intro d more heq
  rw [← (List.cons.inj heq).1]
  exact h

/-! Reading what has been written.  The induction is on the fuel of the reader, which lasts because
every call is for a shorter text.  Writer and reader have rooms of their own. -/

/-- With the given fuel, plain values are read from the beginning of a longer text. -/
def ReadsValues (fuel : Nat) : Prop :=
  ∀ (v : Value) (written room : Nat) (cs left : List Char), v.isPlain = true →
    writeWithin written v = .ofList cs → v.depth ≤ room → EndsNumber left → cs.length ≤ fuel →
    value fuel room (cs ++ left) = .ok (v, left)

/-- With the given fuel, the items of a list are read from the beginning of a longer text. -/
def ReadsItems (fuel : Nat) : Prop :=
  ∀ (v : Value) (rest : List Value) (written room : Nat) (cs left : List Char),
    arePlain (v :: rest) = true → writeItems written (v :: rest) = .ofList cs →
    depthOfItems (v :: rest) ≤ room → cs.length ≤ fuel →
    items fuel room (cs ++ left) = .ok (.list (v :: rest), left)

/-- With the given fuel, the fields of an object are read from the beginning of a longer text. -/
def ReadsFields (fuel : Nat) : Prop :=
  ∀ (field : Text × Value) (rest known : List (Text × Value)) (written room : Nat)
    (cs left : List Char),
    fieldsArePlain (field :: rest) = true → ((known ++ field :: rest).map (·.1)).Nodup →
    writeFields written (field :: rest) = .ofList cs → depthOfFields (field :: rest) ≤ room →
    cs.length ≤ fuel →
    fields fuel room known (cs ++ left) = .ok (.object (known ++ field :: rest), left)

theorem readsItems_succ {fuel : Nat} (hvalues : ReadsValues fuel) (hitems : ReadsItems fuel) :
    ReadsItems (fuel + 1) := by
  intro v rest written room cs left hplain h hdepth hfuel
  rw [arePlain, Bool.and_eq_true] at hplain
  rw [depthOfItems, Nat.max_le] at hdepth
  cases rest with
  | nil =>
      obtain ⟨xs, hxs, rfl⟩ := eq_of_writeItems_single h
      rw [List.length_append, List.length_singleton] at hfuel
      have hv := hvalues v written room xs (']' :: left) hplain.1 hxs hdepth.1
        (endsNumber_cons (by decide) left) (Nat.le_of_succ_le_succ hfuel)
      rw [List.append_assoc]
      exact items_last hv
  | cons w rest =>
      obtain ⟨xs, ys, hxs, hys, rfl⟩ := eq_of_writeItems_cons h
      simp only [List.length_append, List.length_cons] at hfuel
      obtain ⟨hw, -⟩ := Bool.and_eq_true_iff.mp (arePlain.eq_2 w rest ▸ hplain.2)
      have hv := hvalues v written room xs (',' :: ' ' :: (ys ++ left)) hplain.1 hxs hdepth.1
        (endsNumber_cons (by decide) _) (by omega)
      have hrest := hitems w rest written room ys left hplain.2 hys hdepth.2 (by omega)
      obtain ⟨c, more, rfl, hblank, -⟩ := eq_cons_of_writeItems hw hys
      rw [List.append_assoc]
      exact items_more hv hblank hrest

theorem readsFields_succ {fuel : Nat} (hvalues : ReadsValues fuel) (hfields : ReadsFields fuel) :
    ReadsFields (fuel + 1) := by
  intro ⟨key, v⟩ rest known written room cs left hplain hkeys h hdepth hfuel
  simp only [fieldsArePlain, Bool.and_eq_true, Bool.not_eq_true'] at hplain
  obtain ⟨⟨hkey, hv⟩, hrest⟩ := hplain
  rw [depthOfFields, Nat.max_le] at hdepth
  have hnew : key ∉ known.map (·.1) := by
    rw [List.map_append, List.map_cons, List.nodup_append] at hkeys
    intro hmem
    exact hkeys.2.2 key hmem key List.mem_cons_self rfl
  cases rest with
  | nil =>
      obtain ⟨xs, hxs, rfl⟩ := eq_of_writeFields_single h
      simp only [List.length_append, List.length_cons, List.length_nil] at hfuel
      have hvalue := hvalues v written room xs ('\x7d' :: left) hv hxs hdepth.1
        (endsNumber_cons (by decide) left) (by omega)
      obtain ⟨c, more, rfl, hblank, -⟩ := eq_cons_of_writeWithin hv hxs
      rw [← put_of_new hnew v]
      simpa using fields_last known hkey hblank hvalue
  | cons field rest =>
      obtain ⟨xs, ys, hxs, hys, rfl⟩ := eq_of_writeFields_cons h
      simp only [List.length_append, List.length_cons] at hfuel
      have hvalue := hvalues v written room xs (',' :: ' ' :: (ys ++ left)) hv hxs hdepth.1
        (endsNumber_cons (by decide) _) (by omega)
      have happend : known ++ (key, v) :: field :: rest = put known key v ++ field :: rest := by
        rw [put_of_new hnew, List.append_assoc, List.singleton_append]
      rw [happend] at hkeys ⊢
      have hmore := hfields field rest (put known key v) written room ys left hrest hkeys hys
        hdepth.2 (by omega)
      obtain ⟨c, front, rfl, hblank, -⟩ := eq_cons_of_writeWithin hv hxs
      obtain ⟨more, rfl⟩ := eq_cons_of_writeFields hys
      have hquote : isBlank '"' = false := by decide
      simpa using fields_more known hkey hblank hquote hvalue hmore

theorem readsValues_succ {fuel : Nat} (hitems : ReadsItems fuel) (hfields : ReadsFields fuel) :
    ReadsValues (fuel + 1) := by
  intro v written room cs left hplain h hdepth hleft hfuel
  cases v with
  | null =>
      rw [writeWithin] at h
      rw [← Written.ofList_injective h]
      exact value_null fuel room left
  | bool b =>
      cases b with
      | true =>
          rw [writeWithin] at h
          rw [← Written.ofList_injective h]
          exact (value_bool fuel room left).1
      | false =>
          rw [writeWithin] at h
          rw [← Written.ofList_injective h]
          exact (value_bool fuel room left).2
  | int n =>
      obtain ⟨hfit, rfl⟩ := eq_intChars_of_writeWithin h
      exact value_number fuel room hfit hleft
  | str t =>
      rw [eq_quote_of_writeWithin h]
      exact value_text fuel room (by simpa [isPlain] using hplain) left
  | list items =>
      obtain ⟨inner, ys, -, hys, rfl⟩ := eq_bracket_of_writeWithin h
      rw [isPlain] at hplain
      rw [depth] at hdepth
      obtain ⟨room, rfl⟩ : ∃ n, room = n + 1 := ⟨room - 1, by omega⟩
      cases items with
      | nil =>
          rw [← Written.ofList_injective hys]
          exact value_list_nil fuel room left
      | cons v rest =>
          have hread := hitems v rest inner room ys left hplain hys (Nat.le_of_succ_le_succ hdepth)
            (Nat.le_of_succ_le_succ hfuel)
          obtain ⟨hv, -⟩ := Bool.and_eq_true_iff.mp (arePlain.eq_2 v rest ▸ hplain)
          obtain ⟨c, more, rfl, hblank, hc⟩ := eq_cons_of_writeItems hv hys
          exact (value_list_cons fuel room hblank hc _).trans hread
  | object fields =>
      obtain ⟨inner, ys, -, hys, rfl⟩ := eq_brace_of_writeWithin h
      rw [isPlain, Bool.and_eq_true, decide_eq_true_eq] at hplain
      rw [depth] at hdepth
      obtain ⟨room, rfl⟩ : ∃ n, room = n + 1 := ⟨room - 1, by omega⟩
      cases fields with
      | nil =>
          rw [← Written.ofList_injective hys]
          exact value_object_nil fuel room left
      | cons field rest =>
          have hread := hfields field rest [] inner room ys left hplain.2 hplain.1 hys
            (Nat.le_of_succ_le_succ hdepth) (Nat.le_of_succ_le_succ hfuel)
          obtain ⟨more, rfl⟩ := eq_cons_of_writeFields hys
          exact (value_object_cons fuel room _).trans hread
  | float _ => exact absurd hplain nofun
  | bytes _ _ => exact absurd hplain nofun
  | instant _ => exact absurd hplain nofun
  | span _ => exact absurd hplain nofun

theorem reads (fuel : Nat) : ReadsValues fuel ∧ ReadsItems fuel ∧ ReadsFields fuel := by
  induction fuel with
  | zero =>
      refine ⟨?_, ?_, ?_⟩
      · intro v written room cs left hplain h _ _ hfuel
        obtain ⟨c, rest, rfl, -⟩ := eq_cons_of_writeWithin hplain h
        exact absurd hfuel (by simp)
      · intro v rest written room cs left hplain h _ hfuel
        obtain ⟨hv, -⟩ := Bool.and_eq_true_iff.mp (arePlain.eq_2 v rest ▸ hplain)
        obtain ⟨c, rest, rfl, -⟩ := eq_cons_of_writeItems hv h
        exact absurd hfuel (by simp)
      · intro field rest known written room cs left _ _ h _ hfuel
        obtain ⟨rest, rfl⟩ := eq_cons_of_writeFields h
        exact absurd hfuel (by simp)
  | succ fuel ih =>
      obtain ⟨hvalues, hitems, hfields⟩ := ih
      exact ⟨readsValues_succ hitems hfields, readsItems_succ hvalues hitems,
        readsFields_succ hvalues hfields⟩

/-! What is written is printable ASCII -/

/-- All that has been written without a stop is printable ASCII. -/
def InAscii (w : Written) : Prop := ∀ cs, w = .ofList cs → ∀ c ∈ cs, IsPrintableAscii c

theorem inAscii_ofList {cs : List Char} (h : ∀ c ∈ cs, IsPrintableAscii c) :
    InAscii (.ofList cs) := by
  intro ds hds
  rw [← Written.ofList_injective hds]
  exact h

theorem InAscii.followedBy {a b : Written} (ha : InAscii a) (hb : InAscii b) :
    InAscii (a.followedBy b) := by
  intro cs h
  obtain ⟨xs, ys, hxs, hys, rfl⟩ := Written.followedBy_eq_ofList h
  rw [List.forall_mem_append]
  exact ⟨ha xs hxs, hb ys hys⟩

/-- Plain values that hold no others. -/
theorem inAscii_scalar {v : Value} (room : Nat) (hplain : v.isPlain = true) (hdepth : v.depth = 0) :
    InAscii (writeWithin room v) := by
  cases v with
  | null => exact inAscii_ofList (IsPrintableAscii.of_all rfl)
  | bool b =>
      cases b with
      | true => exact inAscii_ofList (IsPrintableAscii.of_all rfl)
      | false => exact inAscii_ofList (IsPrintableAscii.of_all rfl)
  | int n =>
      intro cs h c hc
      rw [(eq_intChars_of_writeWithin h).2] at hc
      exact isPrintableAscii_of_mem_intChars hc
  | str t =>
      intro cs h c hc
      rw [eq_quote_of_writeWithin h] at hc
      exact isPrintableAscii_of_mem_quote (by simpa [isPlain] using hplain) hc
  | list _ => exact absurd hdepth nofun
  | object _ => exact absurd hdepth nofun
  | float _ => exact absurd hplain nofun
  | bytes _ _ => exact absurd hplain nofun
  | instant _ => exact absurd hplain nofun
  | span _ => exact absurd hplain nofun

theorem inAscii_list {room : Nat} {items : List Value}
    (h : ∀ inner, InAscii (writeItems inner items)) : InAscii (writeWithin room (.list items)) := by
  intro cs hcs
  obtain ⟨inner, ys, -, hys, rfl⟩ := eq_bracket_of_writeWithin hcs
  rw [List.forall_mem_cons]
  exact ⟨by decide, h inner ys hys⟩

theorem inAscii_object {room : Nat} {fields : List (Text × Value)}
    (h : ∀ inner, InAscii (writeFields inner fields)) :
    InAscii (writeWithin room (.object fields)) := by
  intro cs hcs
  obtain ⟨inner, ys, -, hys, rfl⟩ := eq_brace_of_writeWithin hcs
  rw [List.forall_mem_cons]
  exact ⟨by decide, h inner ys hys⟩

theorem inAscii_items_cons {room : Nat} {v : Value} {rest : List Value}
    (hv : InAscii (writeWithin room v)) (hrest : InAscii (writeItems room rest)) :
    InAscii (writeItems room (v :: rest)) := by
  cases rest with
  | nil => exact hv.followedBy (inAscii_ofList (IsPrintableAscii.of_all rfl))
  | cons w rest =>
      exact hv.followedBy ((inAscii_ofList (IsPrintableAscii.of_all rfl)).followedBy hrest)

theorem inAscii_fields_cons {room : Nat} {key : Text} {v : Value} {rest : List (Text × Value)}
    (hkey : key.hasHalf = false) (hv : InAscii (writeWithin room v))
    (hrest : InAscii (writeFields room rest)) : InAscii (writeFields room ((key, v) :: rest)) := by
  have hquoted : InAscii (.ofList (quote key ++ [':', ' '])) := by
    apply inAscii_ofList
    rw [List.forall_mem_append]
    exact ⟨fun _ => isPrintableAscii_of_mem_quote hkey, IsPrintableAscii.of_all rfl⟩
  cases rest with
  | nil =>
      exact hquoted.followedBy (hv.followedBy (inAscii_ofList (IsPrintableAscii.of_all rfl)))
  | cons field rest =>
      exact hquoted.followedBy
        (hv.followedBy ((inAscii_ofList (IsPrintableAscii.of_all rfl)).followedBy hrest))

theorem inAscii_writeWithin (v : Value) : ∀ room, v.isPlain = true →
    InAscii (writeWithin room v) := by
  refine Value.isPlain.induct
    (fun v => ∀ room, v.isPlain = true → InAscii (writeWithin room v))
    (fun fields => ∀ room, fieldsArePlain fields = true → InAscii (writeFields room fields))
    (fun items => ∀ room, arePlain items = true → InAscii (writeItems room items))
    ?null ?bool ?int ?str ?list ?object ?other ?noItems ?items ?noFields ?fields v
  case null => exact fun room hplain => inAscii_scalar room hplain rfl
  case bool => exact fun b room hplain => inAscii_scalar room hplain rfl
  case int => exact fun n room hplain => inAscii_scalar room hplain rfl
  case str => exact fun t room hplain => inAscii_scalar room hplain rfl
  case list => exact fun items ih room hplain => inAscii_list fun inner => ih inner hplain
  case object =>
      intro fields ih room hplain
      rw [isPlain, Bool.and_eq_true] at hplain
      exact inAscii_object fun inner => ih inner hplain.2
  case other =>
      intro v _ _ _ _ _ _ room hplain
      cases v <;> simp_all [isPlain]
  case noItems => exact fun _ _ => inAscii_ofList (IsPrintableAscii.of_all rfl)
  case items =>
      intro v rest ihv ihrest room hplain
      rw [arePlain, Bool.and_eq_true] at hplain
      exact inAscii_items_cons (ihv room hplain.1) (ihrest room hplain.2)
  case noFields => exact fun _ _ => inAscii_ofList (IsPrintableAscii.of_all rfl)
  case fields =>
      intro key v rest ihv ihrest room hplain
      simp only [fieldsArePlain, Bool.and_eq_true, Bool.not_eq_true'] at hplain
      obtain ⟨⟨hkey, hv⟩, hrest⟩ := hplain
      exact inAscii_fields_cons hkey (ihv room hv) (ihrest room hrest)

theorem isPrintableAscii_of_writeWithin (v : Value) (room : Nat) (cs : List Char)
    (hplain : v.isPlain = true) (h : writeWithin room v = .ofList cs) :
    ∀ c ∈ cs, IsPrintableAscii c := inAscii_writeWithin v room hplain cs h

theorem readChars_of_writeWithin {v : Value} (hplain : v.isPlain = true) {written : Nat}
    {cs : List Char} (h : writeWithin written v = .ofList cs) {room : Nat}
    (hroom : v.depth ≤ room) :
    readChars room cs = .ok v := by
  obtain ⟨c, rest, rfl, hblank, -⟩ := eq_cons_of_writeWithin hplain h
  have hmark : c ≠ '\uFEFF' := by
    rintro rfl
    exact absurd (isPrintableAscii_of_writeWithin v _ _ hplain h _ List.mem_cons_self) (by decide)
  have hnil : EndsNumber [] := nofun
  have hfuel : (c :: rest).length ≤ 2 * (c :: rest).length + 1 := by omega
  have hvalue := (reads _).1 v written room (c :: rest) [] hplain h hroom hnil hfuel
  rw [List.append_nil] at hvalue
  rw [readChars.eq_2 _ _ fun _ heq => absurd (List.cons.inj heq).1 hmark, skip_of_not_blank hblank,
    hvalue]
  rfl

/-- A plain value is read back from what has been written of it without a stop, if there is room. -/
theorem read_of_write [Limits] {v : Value} (hplain : v.isPlain = true) {cs : List Char}
    (h : write v = .ofList cs) (hroom : v.depth ≤ Limits.readDepth) :
    read (String.ofList cs) = .ok v := by
  rw [read, String.toList_ofList, readChars_of_writeWithin hplain h hroom]
  rfl

end Json
end LiveFeed
