/-
Order and difference of values that are numbers: both are those of the numbers.  What is no number
has no order and no difference with one.  Only a text is equal to a text.
-/
import LiveFeed.Value.Order

namespace LiveFeed.Value

@[simp] theorem order_int (op : Comparison) (m n : Int) :
    order op (.int m) (.int n) = .ok (op.holds (some (compare m n))) := by
  simp [order, compareScalar?, number?, Number.compare?]

@[simp] theorem subtract_int (m n : Int) : subtract (.int m) (.int n) = .ok (.int (m - n)) := by
  simp [subtract, number?, subtractNumbers, Number.combine?, ofNumber]

theorem same_str_iff {v : Value} {t : Text} : v.same (.str t) = true ↔ v = .str t := by
  cases v <;> simp [same, sameScalar, number?]

section

variable {v w : Value} {m n : Number}

theorem compareScalar?_of_numbers (hv : v.number? = some m) (hw : w.number? = some n) :
    v.compareScalar? w = some (m.compare? n) := by
  cases v <;> cases w <;> simp_all [number?, compareScalar?]

theorem order_of_numbers (op : Comparison) (hv : v.number? = some m) (hw : w.number? = some n) :
    order op v w = .ok (op.holds (m.compare? n)) := by
  have hscalar := compareScalar?_of_numbers hv hw
  cases v <;> simp_all [number?, order]

/-- Of two values that can be compared both are numbers, or neither is. -/
theorem isSome_number?_of_order {op : Comparison} {b : Bool} (h : order op v w = .ok b) :
    v.number?.isSome = w.number?.isSome := by
  cases v <;> cases w <;> simp_all [number?, order, compareScalar?]

/-- A difference of numbers, unless one of them would have to be a float and is too large. -/
theorem subtract_of_numbers (hv : v.number? = some m) (hw : w.number? = some n) :
    v.subtract w = subtractNumbers m n := by
  cases v <;> cases w <;> simp_all [number?, subtract]

theorem subtract_int_of_no_number (now : Int) (hw : w.number? = none) :
    subtract (.int now) w = .error (.noDifference .int w.kind) := by
  cases w <;> simp_all [number?, subtract, kind]

end

namespace Comparison

@[simp] theorem holds_less (m n : Int) : less.holds (some (compare m n)) = decide (m < n) := by
  rcases Int.lt_trichotomy m n with h | h | h
  · simp [Int.compare_eq_lt.mpr h, holds, h]
  · simp [h, holds]
  · simp [Int.compare_eq_gt.mpr h, holds, Int.le_of_lt h]

@[simp] theorem holds_greater (m n : Int) :
    greater.holds (some (compare m n)) = decide (n < m) := by
  rcases Int.lt_trichotomy m n with h | h | h
  · simp [Int.compare_eq_lt.mpr h, holds, Int.le_of_lt h]
  · simp [h, holds]
  · simp [Int.compare_eq_gt.mpr h, holds, h]

@[simp] theorem holds_atLeast (m n : Int) :
    atLeast.holds (some (compare m n)) = decide (n ≤ m) := by
  rcases Int.lt_trichotomy m n with h | h | h
  · simp [Int.compare_eq_lt.mpr h, holds, h]
  · simp [h, holds]
  · simp [Int.compare_eq_gt.mpr h, holds, Int.le_of_lt h]

end Comparison
end LiveFeed.Value
