/-
What binary search finds.  Where the test never fails the search ends at a boundary: the index
before it does not pass the test and the index itself does.
-/
import LiveFeed.Log.Basic

namespace LiveFeed.Boundary

variable {ε : Type}

/-- An index that passes the test while the one before it does not, as far as the range has them. -/
structure IsBoundary (test : Nat → Except ε Bool) (low high index : Nat) : Prop where
  low_le : low ≤ index
  le_high : index ≤ high
  before : low < index → test (index - 1) = .ok false
  here : index < high → test index = .ok true

/-- The search ends at a boundary, whatever the order of the range. -/
theorem search_isBoundary (test : Nat → Except ε Bool) (low high : Nat) (hle : low ≤ high)
    (htest : ∀ i, low ≤ i → i < high → ∃ b, test i = .ok b) :
    ∃ index, search test low high = .ok index ∧ IsBoundary test low high index := by
  fun_induction search test low high with
  | case1 low high hlt fault hfault =>
      obtain ⟨b, hb⟩ := htest ((low + high) / 2) (by omega) (by omega)
      rw [hb] at hfault
      contradiction
  | case2 low high hlt hmid ih =>
      obtain ⟨index, hfound, hbound⟩ := ih (by omega)
        fun i hlow hhigh => htest i hlow (by omega)
      refine ⟨index, hfound, hbound.low_le, ?_, hbound.before, ?_⟩
      · have := hbound.le_high
        omega
      · intro _
        rcases Nat.lt_or_eq_of_le hbound.le_high with hinside | hend
        · exact hbound.here hinside
        · rw [hend]
          exact hmid
  | case3 low high hlt hmid ih =>
      obtain ⟨index, hfound, hbound⟩ := ih (by omega)
        fun i hlow hhigh => htest i (by omega) hhigh
      have hlow := hbound.low_le
      refine ⟨index, hfound, by omega, hbound.le_high, ?_, hbound.here⟩
      intro _
      rcases Nat.lt_or_eq_of_le hlow with hinside | hstart
      · exact hbound.before hinside
      · rw [← hstart]
        exact hmid
  | case4 low high hlt =>
      exact ⟨low, rfl, Nat.le_refl low, hle, by omega, by omega⟩

/-- The search only depends on the outcomes of the test. -/
theorem search_congr {δ : Type} {test : Nat → Except ε Bool} {other : Nat → Except δ Bool}
    {low high index : Nat}
    (h : ∀ i, low ≤ i → i < high → ∃ b, test i = .ok b ∧ other i = .ok b)
    (hfound : search test low high = .ok index) : search other low high = .ok index := by
  fun_induction search test low high with
  | case1 low high hlt fault hfault => cases hfound
  | case2 low high hlt hmid ih =>
      obtain ⟨b, hb, hother⟩ := h ((low + high) / 2) (by omega) (by omega)
      rw [hmid, Except.ok.injEq] at hb
      subst hb
      rw [search, if_pos hlt, hother]
      exact ih (fun i hlow hhigh => h i hlow (by omega)) hfound
  | case3 low high hlt hmid ih =>
      obtain ⟨b, hb, hother⟩ := h ((low + high) / 2) (by omega) (by omega)
      rw [hmid, Except.ok.injEq] at hb
      subst hb
      rw [search, if_pos hlt, hother]
      exact ih (fun i hlow hhigh => h i (by omega) hhigh) hfound
  | case4 low high hlt =>
      cases hfound
      rw [search, if_neg hlt]

/-- The search fails only with the test. -/
theorem exists_of_search_error {test : Nat → Except ε Bool} {low high : Nat} {fault : ε}
    (h : search test low high = .error fault) :
    ∃ i, low ≤ i ∧ i < high ∧ test i = .error fault := by
  fun_induction search test low high with
  | case1 low high hlt fault' hfault =>
      cases h
      exact ⟨(low + high) / 2, by omega, by omega, hfault⟩
  | case2 low high hlt hmid ih =>
      obtain ⟨i, hlow, hhigh, hi⟩ := ih h
      exact ⟨i, hlow, by omega, hi⟩
  | case3 low high hlt hmid ih =>
      obtain ⟨i, hlow, hhigh, hi⟩ := ih h
      exact ⟨i, by omega, hhigh, hi⟩
  | case4 low high hlt => cases h

/-- A test that always fails is asked at least once, if there is anything to search. -/
theorem search_error (test : Nat → Except ε Bool) {low high : Nat} (hlt : low < high)
    (htest : ∀ i, low ≤ i → i < high → ∃ fault, test i = .error fault) :
    ∃ fault, search test low high = .error fault := by
  obtain ⟨fault, hfault⟩ := htest ((low + high) / 2) (by omega) (by omega)
  refine ⟨fault, ?_⟩
  rw [search, if_pos hlt, hfault]

end LiveFeed.Boundary
