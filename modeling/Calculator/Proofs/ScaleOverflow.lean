import Calculator.Proofs.Powers

/-!
# Numbers — results that have no scale

A product, a quotient or a power whose scale cannot be counted is refused.  For products that is all
that is refused.  A quotient is also refused if the power of ten that its operands have to be
brought together by is too large, which may be so although its own scale is small, and a power if
its exponent is too large, even of a base for which its scale would be zero.

* `Decimal.mul_eq_scaleOverflow_iff`, `Decimal.div_eq_scaleOverflow_iff`,
  `Decimal.pow_eq_scaleOverflow_iff`: when each of them is refused.
* `Decimal.mul_cases`, `Decimal.div_cases`, `Decimal.pow_cases`: what is not refused has a result.
* `Decimal.pow_of_value_eq_zero`: what a negative power of zero is refused for.
* `Decimal.refused_iff`: **what is refused for its scale**, operation by operation.
* `Decimal.refused_early`: a quotient and powers that are refused although their scales fit.
-/

namespace Calculator

namespace Decimal

variable {a b : Decimal} {precision : Nat} {n : Int}

/-! ### Products -/

theorem mul_eq_scaleOverflow_iff :
    a.mul b = .error .scaleOverflow ↔ maxScale < a.scale + b.scale := by
  rw [mul]
  split
  · rename_i fits
    refine iff_of_false (fun h => ?_) (Nat.not_lt.mpr fits)
    cases h
  · rename_i large
    exact iff_of_true rfl (Nat.not_le.mp large)

/-- All other products have the scale that is looked at. -/
theorem mul_cases (a b : Decimal) :
    a.mul b = .error .scaleOverflow ∨ ∃ d, a.mul b = .ok d ∧ d.scale = a.scale + b.scale := by
  rw [mul]
  split
  · exact .inr ⟨_, rfl, rfl⟩
  · exact .inl rfl

/-! ### Quotients -/

/-- The power of ten that a quotient takes is `precision` digits above what the operands differ by,
in their scales or in the digits of their significands. -/
theorem quotientShift_quotientScale (a b : Decimal) (precision : Nat) :
    quotientShift a b (quotientScale a b precision) = precision
      + max ((b.scale : Int) - a.scale)
        ((digitLength b.significand.natAbs : Int) - digitLength a.significand.natAbs) := by
  rw [quotientShift, quotientScale, magnitude, magnitude]
  omega

/-- A quotient is refused if its scale cannot be counted, or if the divisor has so many more digits
than the dividend, behind the point or in all, that the power of ten between them cannot. -/
theorem div_eq_scaleOverflow_iff (ha : a.value ≠ 0) (hb : b.value ≠ 0) :
    a.div b precision = .error .scaleOverflow ↔
      maxScale < quotientPlaces precision a.value b.value ∨
        maxScale + a.scale < precision + b.scale ∨
        maxScale + digitLength a.significand.natAbs
          < precision + digitLength b.significand.natAbs := by
  have ha : a.significand ≠ 0 := mt (value_eq_zero_iff a).mpr ha
  have hb : b.significand ≠ 0 := mt (value_eq_zero_iff b).mpr hb
  have shift := quotientShift_quotientScale a b precision
  rw [div, if_neg hb, if_neg ha, ← quotientScale_eq ha hb]
  dsimp only
  split
  · rename_i fits
    refine iff_of_false (fun h => ?_) (by omega)
    cases h
  · rename_i large
    exact iff_of_true rfl (by omega)

/-- All other quotients have the scale that their values ask for. -/
theorem div_cases (ha : a.value ≠ 0) (hb : b.value ≠ 0) (precision : Nat) :
    a.div b precision = .error .scaleOverflow ∨ ∃ d, a.div b precision = .ok d ∧
      d.scale = quotientPlaces precision a.value b.value := by
  rcases h : a.div b precision with e | d
  · obtain rfl := eq_scaleOverflow_of_div hb h
    exact .inl rfl
  · exact .inr ⟨d, rfl, (isNearest_of_div h ha).2.2.1⟩

/-! ### Powers -/

/-- A power is refused if its scale cannot be counted, and a power of an integer if its exponent
cannot. -/
theorem pow_eq_scaleOverflow_iff (nonneg : 0 ≤ n) :
    a.pow n precision = .error .scaleOverflow ↔
      maxScale < a.normalForm.scale * n.natAbs ∨
        a.normalForm.scale = 0 ∧ maxScale < n.natAbs := by
  have pow : a.pow n precision = .error .scaleOverflow ↔
      ¬ (n.natAbs ≤ maxScale ∧ a.normalForm.scale * n.natAbs ≤ maxScale) := by
    rw [pow]
    dsimp only
    split
    · rename_i fits
      rw [if_neg (Int.not_lt.mpr nonneg)]
      refine iff_of_false (fun h => ?_) (not_not_intro fits)
      cases h
    · rename_i large
      exact iff_of_true rfl large
  rw [pow]
  rcases Nat.eq_zero_or_pos a.normalForm.scale with whole | fraction
  · rw [whole, Nat.zero_mul]
    omega
  · have le := Nat.le_mul_of_pos_left n.natAbs fraction
    omega

/-- All other powers have the scale that the normal form of the base leads to. -/
theorem pow_cases (nonneg : 0 ≤ n) (a : Decimal) (precision : Nat) :
    a.pow n precision = .error .scaleOverflow ∨ ∃ d, a.pow n precision = .ok d ∧
      d.scale = a.normalForm.scale * n.natAbs := by
  rw [pow]
  dsimp only
  split
  · rw [if_neg (Int.not_lt.mpr nonneg)]
    exact .inr ⟨_, rfl, rfl⟩
  · exact .inl rfl

/-- A negative power of zero divides by zero, if its exponent can be counted. -/
theorem pow_of_value_eq_zero (ha : a.value = 0) (negative : n < 0) :
    a.pow n precision
      = .error (if n.natAbs ≤ maxScale then .divisionByZero else .scaleOverflow) := by
  have whole : a.normalForm.scale * n.natAbs = 0 := by
    rw [normalForm_of_value_eq_zero ha]
    exact Nat.zero_mul _
  split
  · rename_i small
    obtain ⟨d, power, eq⟩ := exists_power small (whole.trans_le (Nat.zero_le _)) precision
    have nothing : d.value = 0 := by
      rw [power.value_eq, ha, zero_pow (Int.natAbs_ne_zero.mpr negative.ne)]
    rw [eq, if_pos negative, div_eq_divisionByZero_iff.mpr nothing]
  · rename_i large
    exact dif_neg fun fits => large fits.1

/-! ### What is refused -/

/-- **What is refused for its scale.**  A product is refused if and only if its scale cannot be
counted.  A quotient of numbers other than zero is refused for its scale, and also if one of the two
differences between its operands is too large; a power whose exponent is not negative is refused for
its scale, and also if it is one of an integer and its exponent is too large.  What is not refused
has a result, at the scale that was looked at.  A negative power of zero is refused because it
divides by zero, if its exponent is not too large. -/
theorem refused_iff (a b : Decimal) (precision : Nat) (n : Int) :
    ((a.mul b = .error .scaleOverflow ↔ maxScale < a.scale + b.scale) ∧
        (a.mul b = .error .scaleOverflow ∨
          ∃ d, a.mul b = .ok d ∧ d.scale = a.scale + b.scale)) ∧
      (a.value ≠ 0 → b.value ≠ 0 →
        (a.div b precision = .error .scaleOverflow ↔
            maxScale < quotientPlaces precision a.value b.value ∨
              maxScale + a.scale < precision + b.scale ∨
              maxScale + digitLength a.significand.natAbs
                < precision + digitLength b.significand.natAbs) ∧
          (a.div b precision = .error .scaleOverflow ∨ ∃ d, a.div b precision = .ok d ∧
            d.scale = quotientPlaces precision a.value b.value)) ∧
      (0 ≤ n →
        (a.pow n precision = .error .scaleOverflow ↔
            maxScale < a.normalForm.scale * n.natAbs ∨
              a.normalForm.scale = 0 ∧ maxScale < n.natAbs) ∧
          (a.pow n precision = .error .scaleOverflow ∨ ∃ d, a.pow n precision = .ok d ∧
            d.scale = a.normalForm.scale * n.natAbs)) ∧
      (n < 0 → a.value = 0 → a.pow n precision
        = .error (if n.natAbs ≤ maxScale then .divisionByZero else .scaleOverflow)) := by
  refine ⟨⟨mul_eq_scaleOverflow_iff, mul_cases a b⟩, fun ha hb => ?_, fun nonneg => ?_,
    fun negative ha => pow_of_value_eq_zero ha negative⟩
  · exact ⟨div_eq_scaleOverflow_iff ha hb, div_cases ha hb precision⟩
  · exact ⟨pow_eq_scaleOverflow_iff nonneg, pow_cases nonneg a precision⟩

/-- The smallest decimal above zero. -/
def smallest : Decimal := ⟨1, maxScale, Nat.le_refl _⟩

/-- One over the smallest decimal would have one place, and powers of zero and one none. -/
theorem refused_early :
    one.div smallest 1 = .error .scaleOverflow ∧ quotientScale one smallest 1 = 1 ∧
      one.pow 4294967296 20 = .error .scaleOverflow ∧ one.normalForm.scale * 4294967296 = 0 ∧
      zero.pow (-4294967296) 20 = .error .scaleOverflow ∧
      zero.pow (-4294967295) 20 = .error .divisionByZero := by
  refine ⟨by decide, by decide, by decide, by decide, by decide, ?_⟩
  exact pow_of_value_eq_zero value_zero (by decide)

end Decimal
end Calculator
