import Calculator.Proofs.Powers
import Calculator.Proofs.Shortening

/-!
# Evaluation — the sizes of results

Products and powers are refused by an estimate of their digits that is read off the bits of the
operands, which is never too small.

* `toNat_digitEstimateWord`: the estimate is the same if it is made in words of 64 bits.
* `digitLength_mul_le_productEstimate`, `Decimal.IsPower.digitLength_le`: products and powers have
  no more digits than are estimated.
* `sizes_admitted`: **what is admitted has no more digits than the limit says**.
-/

namespace Calculator

/-! ### Estimates in words -/

/-- The estimate of the digits, made in words of 64 bits. -/
def digitEstimateWord (n : Nat) : UInt64 := UInt64.ofNat (bitLength n) * 30103 / 100000 + 1

/-- No word overflows in the estimate of a number of less than `2 ^ 48` bits. -/
theorem toNat_digitEstimateWord {n : Nat} (h : bitLength n < 2 ^ 48) :
    (digitEstimateWord n).toNat = digitEstimate n := by
  have bits : bitLength n * 30103 < 2 ^ 64 := by omega
  have digits : bitLength n * 30103 / 100000 + 1 < 2 ^ 64 := by omega
  have whole : (UInt64.ofNat (bitLength n) * 30103).toNat = bitLength n * 30103 := by
    have small : bitLength n < 2 ^ 64 := by omega
    rw [UInt64.toNat_mul, UInt64.toNat_ofNat', Nat.mod_eq_of_lt small]
    exact Nat.mod_eq_of_lt bits
  rw [digitEstimateWord, UInt64.toNat_add, UInt64.toNat_div, whole]
  exact Nat.mod_eq_of_lt digits

/-- Nor in the sum of two of them. -/
theorem toNat_add_digitEstimateWord {a b : Decimal} (ha : bitLength a.significand.natAbs < 2 ^ 48)
    (hb : bitLength b.significand.natAbs < 2 ^ 48) :
    (digitEstimateWord a.significand.natAbs + digitEstimateWord b.significand.natAbs).toNat
      = productEstimate a b := by
  have fits : productEstimate a b < 2 ^ 64 := by
    rw [productEstimate, digitEstimate, digitEstimate]
    omega
  rw [UInt64.toNat_add, toNat_digitEstimateWord ha, toNat_digitEstimateWord hb]
  exact Nat.mod_eq_of_lt fits

/-! ### Results that are admitted -/

variable {limits : Limits} {a b d : Decimal} {e : Expr} {span : Span} {n : Int}

namespace Decimal

theorem significand_mul (h : a.mul b = .ok d) : d.significand = a.significand * b.significand := by
  rw [mul] at h
  split at h
  · cases h
    rfl
  · cases h

theorem IsPower.significand_eq {k : Nat} (h : a.IsPower k d) :
    d.significand = a.normalForm.significand ^ k := by
  have fits : a.normalForm.scale * k ≤ maxScale := h.scale_eq ▸ d.scale_le
  rw [h.unique ⟨rfl, value_power a k fits⟩]

/-- A power has no more digits than are estimated for its base as it is written: the normal form
that it is taken of has no more than that. -/
theorem IsPower.digitLength_le {k : Nat} (h : a.IsPower k d) (hk : 0 < k) :
    digitLength d.significand.natAbs ≤ digitEstimate a.significand.natAbs * k := by
  rw [h.significand_eq, Int.natAbs_pow]
  calc digitLength (a.normalForm.significand.natAbs ^ k)
      ≤ digitLength a.normalForm.significand.natAbs * k := digitLength_pow_le _ hk
    _ ≤ digitEstimate a.significand.natAbs * k :=
        Nat.mul_le_mul_right k ((digitLength_le_digitEstimate _).trans
          a.shortens_normalForm.digitEstimate_le)

/-- A power that is computed is exact, or one is divided by it. -/
theorem exists_isPower_of_pow {precision : Nat} (small : n.natAbs ≤ maxScale)
    (h : a.pow n precision = .ok d) : ∃ p, a.IsPower n.natAbs p ∧
      (if n < 0 then one.div p precision else .ok p) = .ok d := by
  rcases Nat.lt_or_ge maxScale (a.normalForm.scale * n.natAbs) with large | fits
  · rw [pow_of_overflow large] at h
    cases h
  · obtain ⟨p, power, eq⟩ := exists_power small fits precision
    exact ⟨p, power, eq.symm.trans h⟩

end Decimal

/-- A product has no more digits than are estimated. -/
theorem digitLength_mul_le_productEstimate (a b : Decimal) :
    digitLength (a.significand * b.significand).natAbs ≤ productEstimate a b := by
  rw [Int.natAbs_mul]
  calc digitLength (a.significand.natAbs * b.significand.natAbs)
      ≤ digitLength a.significand.natAbs + digitLength b.significand.natAbs :=
        digitLength_mul_le _ _
    _ ≤ productEstimate a b :=
        Nat.add_le_add (digitLength_le_digitEstimate _) (digitLength_le_digitEstimate _)

/-- A product that is admitted has no more digits than the limit says. -/
theorem digitLength_of_apply_mul (h : Operator.mul.apply limits a b e span = .ok d) :
    digitLength d.significand.natAbs ≤ limits.maxDigits.toNat := by
  obtain ⟨admitted, product⟩ := apply_mul_eq_ok_iff.mp h
  rw [Decimal.significand_mul product]
  exact (digitLength_mul_le_productEstimate a b).trans admitted

/-- So has a power that is admitted, before one is divided by it if the exponent is negative. -/
theorem exists_isPower_of_apply_pow (limited : limits.maxDigits.toNat < maxEstimate)
    (integer : b.value = n) (hn : n ≠ 0) (h : Operator.pow.apply limits a b e span = .ok d) :
    ∃ p, a.IsPower n.natAbs p ∧
      (if n < 0 then Decimal.one.div p limits.precision.toNat else .ok p) = .ok d ∧
      digitLength p.significand.natAbs ≤ limits.maxDigits.toNat := by
  obtain ⟨m, integer', small, admitted, power⟩ := apply_pow_eq_ok_iff.mp h
  obtain rfl : n = m := by
    rw [Decimal.toInteger?_eq_some_iff.mpr integer] at integer'
    exact Option.some.inj integer'
  obtain ⟨p, isPower, result⟩ := Decimal.exists_isPower_of_pow (natAbs_le_maxScale small) power
  refine ⟨p, isPower, result, (isPower.digitLength_le (Int.natAbs_pos.mpr hn)).trans ?_⟩
  exact Nat.not_lt.mp (mt (lt_powerEstimate_iff limited).mpr (Nat.not_lt.mpr admitted))

/-- **What is admitted has no more digits than the limit says**, if the limit is not the largest
word: a product, a power, and, where the exponent is negative, the power that one is divided by.
No integer, of either sign, has more digits than its estimate says; and for operands of less than
`2 ^ 48` bits, no word overflows in the estimates. -/
theorem sizes_admitted (limited : limits.maxDigits.toNat < maxEstimate)
    (ha : bitLength a.significand.natAbs < 2 ^ 48) (hb : bitLength b.significand.natAbs < 2 ^ 48)
    (e : Expr) (span : Span) :
    (∀ v : Int, bitLength v.natAbs < 2 ^ 48 →
        digitLength v.natAbs ≤ (digitEstimateWord v.natAbs).toNat) ∧
      (digitEstimateWord a.significand.natAbs + digitEstimateWord b.significand.natAbs).toNat
        = productEstimate a b ∧
      (∀ n, min ((digitEstimateWord a.significand.natAbs).toNat * n.natAbs) maxEstimate
        = powerEstimate a n) ∧
      (∀ d, Operator.mul.apply limits a b e span = .ok d →
        digitLength d.significand.natAbs ≤ limits.maxDigits.toNat) ∧
      (∀ (n : Int) (d : Decimal), b.value = n → 1 ≤ n →
        Operator.pow.apply limits a b e span = .ok d →
          a.IsPower n.natAbs d ∧ digitLength d.significand.natAbs ≤ limits.maxDigits.toNat) ∧
      ∀ (n : Int) (d : Decimal), b.value = n → n ≤ -1 →
        Operator.pow.apply limits a b e span = .ok d →
          ∃ p, a.IsPower n.natAbs p ∧ Decimal.one.div p limits.precision.toNat = .ok d ∧
            digitLength p.significand.natAbs ≤ limits.maxDigits.toNat := by
  refine ⟨fun v hv => ?_, toNat_add_digitEstimateWord ha hb, fun n => ?_,
    fun d => digitLength_of_apply_mul, fun n d integer positive h => ?_,
    fun n d integer negative h => ?_⟩
  · rw [toNat_digitEstimateWord hv]
    exact digitLength_le_digitEstimate v.natAbs
  · rw [toNat_digitEstimateWord ha, powerEstimate]
  · obtain ⟨p, isPower, result, digits⟩ :=
      exists_isPower_of_apply_pow limited integer (by omega) h
    rw [if_neg (by omega)] at result
    obtain rfl := Except.ok.inj result
    exact ⟨isPower, digits⟩
  · obtain ⟨p, isPower, result, digits⟩ :=
      exists_isPower_of_apply_pow limited integer (by omega) h
    rw [if_pos (by omega)] at result
    exact ⟨p, isPower, result, digits⟩

/-- The number `-99.90`. -/
def paddedBase : Decimal := ⟨-9990, 2, by decide⟩

/-- The number `-3.0`. -/
def paddedExponent : Decimal := ⟨-30, 1, by decide⟩

/-- The power that one is divided by has nine digits; fifteen are estimated. -/
theorem sizes_admitted_reciprocal :
    ({ maxDigits := 15 } : Limits).maxDigits.toNat < maxEstimate ∧
      bitLength paddedBase.significand.natAbs < 2 ^ 48 ∧
      bitLength paddedExponent.significand.natAbs < 2 ^ 48 ∧ paddedExponent.value = (-3 : Int) ∧
      ∃ d p, Operator.pow.apply { maxDigits := 15 } paddedBase paddedExponent (.num "3.0" ⟨10, 13⟩)
          ⟨0, 13⟩ = .ok d ∧ paddedBase.IsPower 3 p ∧ Decimal.one.div p 20 = .ok d ∧
        digitLength p.significand.natAbs ≤ 15 := by
  have limited : ({ maxDigits := 15 } : Limits).maxDigits.toNat < maxEstimate := by decide
  have ha : bitLength paddedBase.significand.natAbs < 2 ^ 48 := by decide
  have hb : bitLength paddedExponent.significand.natAbs < 2 ^ 48 := by decide
  have integer : paddedExponent.value = (-3 : Int) :=
    Decimal.toInteger?_eq_some_iff.mp (by decide)
  have result : Operator.pow.apply { maxDigits := 15 } paddedBase paddedExponent
      (.num "3.0" ⟨10, 13⟩) ⟨0, 13⟩ = .ok ⟨-10030060100150210280, 25, by decide⟩ := by decide
  obtain ⟨-, -, -, -, -, negative⟩ := sizes_admitted limited ha hb (.num "3.0" ⟨10, 13⟩) ⟨0, 13⟩
  obtain ⟨p, isPower, quotient, digits⟩ := negative _ _ integer (by decide) result
  exact ⟨limited, ha, hb, integer, _, p, result, isPower, quotient, digits⟩

end Calculator
