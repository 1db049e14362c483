import Mathlib.Algebra.Order.Field.Rat
import Mathlib.Tactic.FieldSimp
import Mathlib.Tactic.Positivity
import Mathlib.Tactic.Ring
import Calculator.Decimal.Division

/-!
# Numbers — the value of a decimal

The rational number that a decimal stands for, and what each operation does to it.

* `Decimal.value_add`, `Decimal.value_sub`, `Decimal.value_neg`, `Decimal.value_mul`: arithmetic
  is exact.
* `Decimal.value_normalForm`: the normal form keeps the value.
* `Decimal.compareValue_eq`: decimals are ordered by their values.
-/

namespace Calculator

namespace Decimal

/-- The rational number that a decimal stands for. -/
def value (d : Decimal) : ℚ := d.significand / 10 ^ d.scale

theorem value_ofInt (n : Int) : (ofInt n).value = n := by simp [value, ofInt]

@[simp] theorem value_zero : zero.value = 0 := by simp [zero, value_ofInt]

@[simp] theorem value_one : one.value = 1 := by simp [one, value_ofInt]

theorem value_eq_zero_iff (d : Decimal) : d.value = 0 ↔ d.significand = 0 := by
  simp [value]

/-- The significand at a larger scale counts units of that scale. -/
theorem atScale_eq (d : Decimal) {scale : Nat} (h : d.scale ≤ scale) :
    (d.atScale scale : ℚ) = d.value * 10 ^ scale := by
  obtain ⟨k, rfl⟩ := Nat.exists_eq_add_of_le h
  rw [atScale, value, Nat.add_sub_cancel_left]
  push_cast
  rw [pow_add]
  field_simp

theorem value_add (a b : Decimal) : (a + b).value = a.value + b.value := by
  show (align (· + ·) a b).value = _
  have ha := a.atScale_eq (Nat.le_max_left a.scale b.scale)
  have hb := b.atScale_eq (Nat.le_max_right a.scale b.scale)
  simp only [align, value] at *
  push_cast
  rw [ha, hb]
  field_simp

theorem value_sub (a b : Decimal) : (a - b).value = a.value - b.value := by
  show (align (· - ·) a b).value = _
  have ha := a.atScale_eq (Nat.le_max_left a.scale b.scale)
  have hb := b.atScale_eq (Nat.le_max_right a.scale b.scale)
  simp only [align, value] at *
  push_cast
  rw [ha, hb]
  field_simp

theorem value_neg (d : Decimal) : (-d).value = -d.value := by
  show (neg d).value = _
  simp only [neg, value]
  push_cast
  ring

theorem value_mul {a b c : Decimal} (h : a.mul b = .ok c) : c.value = a.value * b.value := by
  unfold mul at h
  split at h
  · cases h
    simp only [value]
    push_cast
    rw [pow_add]
    field_simp
  · cases h

theorem value_normalForm (d : Decimal) : d.normalForm.value = d.value := by
  have h := d.normalForm_mul
  have h : (d.normalForm.significand : ℚ) * 10 ^ d.scale
      = d.significand * 10 ^ d.normalForm.scale := by exact_mod_cast h
  rw [value, value, div_eq_div_iff (by positivity) (by positivity), h]

/-- Decimals are ordered by their values. -/
theorem compareValue_eq (a b : Decimal) : a.compareValue b = compare a.value b.value := by
  have ha := a.atScale_eq (Nat.le_max_left a.scale b.scale)
  have hb := b.atScale_eq (Nat.le_max_right a.scale b.scale)
  have hpos : (0 : ℚ) < 10 ^ max a.scale b.scale := by positivity
  have lt : a.atScale (max a.scale b.scale) < b.atScale (max a.scale b.scale)
      ↔ a.value < b.value := by
    rw [← @Int.cast_lt ℚ, ha, hb, mul_lt_mul_iff_left₀ hpos]
  have eq : a.atScale (max a.scale b.scale) = b.atScale (max a.scale b.scale)
      ↔ a.value = b.value := by
    rw [← @Int.cast_inj ℚ, ha, hb, mul_left_inj' hpos.ne']
  rw [compareValue]
  rcases lt_trichotomy a.value b.value with h | h | h
  · rw [compare_lt_iff_lt.2 h, compare_lt_iff_lt.2 (lt.2 h)]
  · rw [compare_eq_iff_eq.2 h, compare_eq_iff_eq.2 (eq.2 h)]
  · have gt : b.atScale (max a.scale b.scale) < a.atScale (max a.scale b.scale) := by
      rw [← @Int.cast_lt ℚ, ha, hb, mul_lt_mul_iff_left₀ hpos]
      exact h
    rw [compare_gt_iff_gt.2 h, compare_gt_iff_gt.2 gt]

/-- Decimals compare as equal if and only if they have one value. -/
theorem compareValue_eq_eq_iff {a b : Decimal} : a.compareValue b = .eq ↔ a.value = b.value := by
  rw [compareValue_eq, compare_eq_iff_eq]

end Decimal
end Calculator
