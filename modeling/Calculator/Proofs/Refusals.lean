import Calculator.Proofs.Sizes

/-!
# Evaluation — products that are refused

A product is refused by the estimate of its digits before it is computed, so one that would have
been small enough may be refused.  The estimate of a product of numbers of at most `10 ^ 8` bits is
at most three digits too large, one for each operand and one because a product may have a digit less
than its factors have together.

* `productEstimate_le`: the estimate of a product is at most three digits too large.
* `apply_mul_eq_resultTooLarge_iff`: what is refused, and what is said of it.
* `refused_product_nearly_full`: **what is refused has at most two digits less than the limit
  says**.
-/

namespace Calculator

/-! ### Estimates of products -/

variable {limits : Limits} {a b : Decimal} {e : Expr} {span : Span}

/-- The significand of a product has at most three digits less than are estimated. -/
theorem productEstimate_le (ha : a.significand ≠ 0) (hb : b.significand ≠ 0)
    (fewA : bitLength a.significand.natAbs ≤ 10 ^ 8)
    (fewB : bitLength b.significand.natAbs ≤ 10 ^ 8) :
    productEstimate a b ≤ digitLength (a.significand * b.significand).natAbs + 3 := by
  have ha' := Int.natAbs_ne_zero.mpr ha
  have hb' := Int.natAbs_ne_zero.mpr hb
  have digits := digitLength_add_le ha' hb'
  rw [productEstimate, Int.natAbs_mul]
  calc digitEstimate a.significand.natAbs + digitEstimate b.significand.natAbs
      ≤ digitLength a.significand.natAbs + 1 + (digitLength b.significand.natAbs + 1) :=
        Nat.add_le_add (digitEstimate_le_succ ha' fewA) (digitEstimate_le_succ hb' fewB)
    _ ≤ digitLength (a.significand.natAbs * b.significand.natAbs) + 3 := by omega

/-! ### Products that are refused -/

/-- What is refused for its size is what is estimated to be larger than the limit, and nothing is
said of it but the estimate. -/
theorem apply_mul_eq_resultTooLarge_iff {digits max column : Nat} :
    Operator.mul.apply limits a b e span = .error ⟨.resultTooLarge digits max, column⟩ ↔
      max < digits ∧ digits = productEstimate a b ∧ max = limits.maxDigits.toNat ∧
        column = span.column := by
  rw [Operator.apply_mul, bind_eq_error]
  constructor
  · rintro (refused | ⟨-, -, overflow⟩)
    · obtain ⟨large, eq⟩ := allow_eq_error_iff.mp refused
      cases eq
      exact ⟨large, rfl, rfl, rfl⟩
    · -- what the multiplication itself is refused for is not its size
      obtain ⟨error, -, located⟩ := mapError_eq_error.mp overflow
      cases error <;> cases located
  · rintro ⟨large, rfl, rfl, rfl⟩
    exact .inl (allow_eq_error_iff.mpr ⟨large, rfl⟩)

/-- **What is refused would have at most two digits less than the limit says.**  An integer other
than zero of at most `10 ^ 8` bits, of either sign, has as many digits as are estimated for it, or
one less.  So if a product of such operands is refused for its size, the limit that is named is the
one that holds, the digits that are named are those of the product or at most three more, and the
significand of the product has at most two digits less than the limit.  With so few bits, no word
overflows in the estimates. -/
theorem refused_product_nearly_full (limits : Limits) (ha : a.significand ≠ 0)
    (hb : b.significand ≠ 0) (fewA : bitLength a.significand.natAbs ≤ 10 ^ 8)
    (fewB : bitLength b.significand.natAbs ≤ 10 ^ 8) (e : Expr) (span : Span) :
    (∀ v : Int, v ≠ 0 → bitLength v.natAbs ≤ 10 ^ 8 →
        digitLength v.natAbs ≤ (digitEstimateWord v.natAbs).toNat ∧
          (digitEstimateWord v.natAbs).toNat ≤ digitLength v.natAbs + 1) ∧
      ∀ digits max column,
        Operator.mul.apply limits a b e span = .error ⟨.resultTooLarge digits max, column⟩ →
          max = limits.maxDigits.toNat ∧
          digits = (digitEstimateWord a.significand.natAbs
            + digitEstimateWord b.significand.natAbs).toNat ∧
          digitLength (a.significand * b.significand).natAbs ≤ digits ∧
          digits ≤ digitLength (a.significand * b.significand).natAbs + 3 ∧
          limits.maxDigits.toNat ≤ digitLength (a.significand * b.significand).natAbs + 2 := by
  have words {v : Int} (few : bitLength v.natAbs ≤ 10 ^ 8) : bitLength v.natAbs < 2 ^ 48 :=
    few.trans_lt (by decide)
  refine ⟨fun v hv few => ?_, fun digits max column refused => ?_⟩
  · rw [toNat_digitEstimateWord (words few)]
    exact ⟨digitLength_le_digitEstimate _, digitEstimate_le_succ (Int.natAbs_ne_zero.mpr hv) few⟩
  · obtain ⟨large, rfl, rfl, -⟩ := apply_mul_eq_resultTooLarge_iff.mp refused
    have tooLarge := productEstimate_le ha hb fewA fewB
    exact ⟨rfl, (toNat_add_digitEstimateWord (words fewA) (words fewB)).symm,
      digitLength_mul_le_productEstimate a b, tooLarge,
      Nat.le_of_lt_succ (large.trans_le tooLarge)⟩

/-- The number `-0.512`. -/
def overestimated : Decimal := ⟨-512, 3, by decide⟩

/-- The product of `-0.512` and `8` has four digits; six are estimated, so that it is refused where
five are admitted. -/
theorem refused_product_nearly_full_fitting :
    overestimated.significand ≠ 0 ∧ (Decimal.ofInt 8).significand ≠ 0 ∧
      bitLength overestimated.significand.natAbs ≤ 10 ^ 8 ∧
      bitLength (Decimal.ofInt 8).significand.natAbs ≤ 10 ^ 8 ∧
      Operator.mul.apply { maxDigits := 5 } overestimated (.ofInt 8) (.num "8" ⟨9, 10⟩) ⟨0, 10⟩
        = .error ⟨.resultTooLarge 6 5, 1⟩ ∧
      digitLength (-4096 : Int).natAbs = 4 ∧ 6 ≤ digitLength (-4096 : Int).natAbs + 3 ∧
      5 ≤ digitLength (-4096 : Int).natAbs + 2 := by
  have ha : overestimated.significand ≠ 0 := by decide
  have hb : (Decimal.ofInt 8).significand ≠ 0 := by decide
  have fewA : bitLength overestimated.significand.natAbs ≤ 10 ^ 8 := by decide
  have fewB : bitLength (Decimal.ofInt 8).significand.natAbs ≤ 10 ^ 8 := by decide
  have refused : Operator.mul.apply { maxDigits := 5 } overestimated (.ofInt 8)
      (.num "8" ⟨9, 10⟩) ⟨0, 10⟩ = .error ⟨.resultTooLarge 6 5, 1⟩ := by decide
  obtain ⟨-, bounds⟩ :=
    refused_product_nearly_full { maxDigits := 5 } ha hb fewA fewB (.num "8" ⟨9, 10⟩) ⟨0, 10⟩
  obtain ⟨-, -, -, digits, limit⟩ := bounds 6 5 1 refused
  exact ⟨ha, hb, fewA, fewB, refused, by decide, digits, limit⟩

end Calculator
