/-
The readings that a publisher makes up.  As long as chance hands out floats, every draw gives a
reading: floats can be multiplied and written whatever they are, and the prices remain floats.
-/
import LiveFeed.Proofs.Path
import LiveFeed.Publisher.Readings

namespace LiveFeed

/-- Only what has no halves in it has octets. -/
theorem Utf8.exists_encodeText_iff {text : Text} :
    (∃ octets, encodeText text = .ok octets) ↔ text.hasHalf = false := by
  rw [Text.hasHalf, List.any_eq_false, encodeText]
  simp only [Bool.not_eq_true]
  rw [← unpaired?_eq_none_iff]
  cases unpaired? CodePoint.isHalf text <;> simp

namespace Chance

/-- What is drawn from the interval and from the bell curve are floats. -/
structure HandsOutFloats (chance : Chance) : Prop where
  uniform : ∀ v ∈ chance.uniform, ∃ x, v = .float x
  gauss : ∀ v ∈ chance.gauss, ∃ x, v = .float x

variable {chance later : Chance}

/-- Something can be drawn of what is not empty. -/
theorem exists_drawChoice? {items : List Text} (h : items ≠ []) (chance : Chance) :
    ∃ item later, item ∈ items ∧ chance.drawChoice? items = (some item, later) ∧
      later.uniform = chance.uniform ∧ later.gauss = chance.gauss := by
  have hlength : (0 : Int) < items.length := Int.natCast_pos.mpr (List.length_pos_iff.mpr h)
  let index := (chance.choices.headD 0).emod items.length
  have hlow : 0 ≤ index := Int.emod_nonneg _ (Int.ne_of_gt hlength)
  have hhigh : index < items.length := Int.emod_lt_of_pos _ hlength
  have hinside : index.toNat < items.length := by omega
  refine ⟨items[index.toNat], { chance with choices := chance.choices.drop 1 },
    List.getElem_mem hinside, ?_, rfl, rfl⟩
  rw [drawChoice?, List.getElem?_eq_getElem hinside]

/-- The first of some floats, or what stands in for it, is a float. -/
theorem exists_headD_float {values : List Value} (h : ∀ v ∈ values, ∃ x, v = .float x)
    (instead : Float) : ∃ x, values.headD (.float instead) = .float x := by
  cases values with
  | nil => exact ⟨instead, rfl⟩
  | cons v rest => exact h v List.mem_cons_self

theorem HandsOutFloats.drawUniform (h : chance.HandsOutFloats) :
    ∃ x later, chance.drawUniform = (.float x, later) ∧ later.HandsOutFloats := by
  obtain ⟨x, hx⟩ := exists_headD_float h.uniform 100
  exact ⟨x, _, congrArg (·, _) hx, fun v hv => h.uniform v (List.mem_of_mem_drop hv), h.gauss⟩

theorem HandsOutFloats.drawGauss (h : chance.HandsOutFloats) :
    ∃ x later, chance.drawGauss = (.float x, later) ∧ later.HandsOutFloats := by
  obtain ⟨x, hx⟩ := exists_headD_float h.gauss 0
  exact ⟨x, _, congrArg (·, _) hx, h.uniform, fun v hv => h.gauss v (List.mem_of_mem_drop hv)⟩

end Chance

namespace Prices

/-- All the prices are floats. -/
def AreFloats (prices : Prices) : Prop := ∀ price ∈ prices, ∃ x, price.2 = .float x

/-- A price that is a float changes into another one. -/
theorem exists_changed (x change : Float) :
    ∃ y, changed (.float x) (.float change) = .ok (.float y) := by
  obtain ⟨one, hone⟩ : ∃ one, Binary64.ofInt? 1 = some one :=
    Option.isSome_iff_exists.mp (by decide +kernel)
  refine ⟨x * (one + change), ?_⟩
  have hfactor : factorOf (.float change) = .ok (.float (one + change)) := by
    simp [factorOf, Value.number?, Number.combine?, Number.toFloat?, hone]
  rw [changed, hfactor]
  rfl

theorem exists_reading {feed : Text} (hfeed : feed.hasHalf = false) (x : Float) :
    ∃ octets, reading feed (.float x) = .ok octets := by
  have hhalf : (feed ++ (Text.ofString "=") ++ Text.ofString (FloatText.twoPlaces x)).hasHalf =
      false := by
    rw [Text.hasHalf_append, Text.hasHalf_append, hfeed, Text.hasHalf_ofString,
      Text.hasHalf_ofString]
    rfl
  obtain ⟨octets, hoctets⟩ := Utf8.exists_encodeText_iff.mpr hhalf
  refine ⟨octets, ?_⟩
  have htext : text (.float x) = .ok (FloatText.twoPlaces x) := rfl
  rw [reading, htext]
  exact congrArg (Except.mapError Fault.encoding) hoctets

/-- The price of a feed, or the one it starts from, is a float. -/
theorem AreFloats.price {prices : Prices} (h : prices.AreFloats) (feed : Text) (start : Float) :
    ∃ x, (Value.field? prices feed).getD (.float start) = .float x := by
  rw [Value.field?]
  cases hfound : prices.find? (·.1 = feed) with
  | none => exact ⟨start, rfl⟩
  | some price => exact h price (List.mem_of_find?_eq_some hfound)

theorem AreFloats.put {prices : Prices} (h : prices.AreFloats) (feed : Text) (x : Float) :
    AreFloats (Value.put prices feed (.float x)) := by
  intro price hprice
  unfold Value.put at hprice
  split at hprice
  · obtain ⟨old, hold, rfl⟩ := List.mem_map.mp hprice
    split
    · exact ⟨x, rfl⟩
    · exact h old hold
  · rcases List.mem_append.mp hprice with hold | hnew
    · exact h price hold
    · rw [List.mem_singleton.mp hnew]
      exact ⟨x, rfl⟩

/-- A draw of floats gives a reading. -/
theorem AreFloats.exists_step {prices : Prices} (h : prices.AreFloats) {feed : Text}
    (hfeed : feed.hasHalf = false) (start change : Float) :
    ∃ octets later, step feed (.float start) (.float change) prices = .ok octets later ∧
      later.AreFloats := by
  obtain ⟨x, hprice⟩ := h.price feed start
  obtain ⟨y, hchanged⟩ := exists_changed x change
  obtain ⟨octets, hreading⟩ := exists_reading hfeed y
  refine ⟨octets, Value.put prices feed (.float y), ?_, h.put feed y⟩
  simp only [step, hprice, hchanged, hreading]

end Prices

namespace Publisher

/-- The readings that a publisher makes up: each one of a feed that is drawn, from its last price
or, if it has none, from one that is drawn. -/
inductive Readings (feeds : List Text) : Chance → Prices → List Bytes → Prop where
  | done {chance : Chance} {prices : Prices} : Readings feeds chance prices []
  | next {chance chosen started changed : Chance} {prices later : Prices} {feed : Text}
      {start change : Value} {reading : Bytes} {rest : List Bytes}
      (hfeed : chance.drawChoice? feeds = (some feed, chosen))
      (hstart : chosen.drawUniform = (start, started))
      (hchange : started.drawGauss = (change, changed))
      (hstep : Prices.step feed start change prices = .ok reading later)
      (hrest : Readings feeds changed later rest) : Readings feeds chance prices (reading :: rest)

/-- Chance that hands out floats makes as many readings as are asked for. -/
theorem exists_readings {feeds : List Text} (hfeeds : feeds ≠ [])
    (hoctets : ∀ feed ∈ feeds, feed.hasHalf = false) {chance : Chance}
    (hchance : chance.HandsOutFloats) {prices : Prices} (hprices : prices.AreFloats) (n : Nat) :
    ∃ readings, readings.length = n ∧ Readings feeds chance prices readings := by
  induction n generalizing chance prices with
  | zero => exact ⟨[], rfl, .done⟩
  | succ n ih =>
      obtain ⟨feed, chosen, hmem, hfeed, huniform, hgauss⟩ := chance.exists_drawChoice? hfeeds
      have hchosen : chosen.HandsOutFloats :=
        ⟨huniform ▸ hchance.uniform, hgauss ▸ hchance.gauss⟩
      obtain ⟨start, started, hstart, hstarted⟩ := hchosen.drawUniform
      obtain ⟨change, changed, hchange, hchanged⟩ := hstarted.drawGauss
      obtain ⟨reading, later, hstep, hlater⟩ := hprices.exists_step (hoctets feed hmem) start change
      obtain ⟨rest, hlength, hrest⟩ := ih hchanged hlater
      exact ⟨reading :: rest, congrArg (· + 1) hlength, .next hfeed hstart hchange hstep hrest⟩

end Publisher
end LiveFeed
