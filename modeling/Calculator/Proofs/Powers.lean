import Calculator.Proofs.Estimates
import Calculator.Proofs.Results
import Calculator.Proofs.Rounding
import Calculator.Word

/-!
# Evaluation — powers

What a power comes to, for every base and every exponent.  The exponent is looked at first, by its
value: whether it is an integer, and whether it is within the limit.  Then the digits are estimated,
from the base as it is written, and last the scale of the power is that of the normal form of the
base as often as the exponent says.

* `Decimal.exists_power`: a power that can be written is exact; one with a negative exponent divides
  one.
* `lt_powerEstimate_iff`: estimates are compared as they are, unless every number of digits is
  allowed.
* `Decimal.Outcome`: what becomes of a power whose exponent is an integer, case by case.
* `Decimal.raise_outcome`: **a power is one of seven outcomes, decided in a fixed order**.
* `Decimal.raise_paddedOne_estimated`: where every number of digits is allowed, an estimate above
  the limit refuses nothing.
-/

namespace Calculator

variable {limits : Limits} {base exponent : Decimal} {exponentExpr : Expr} {span : Span} {n : Int}
  {precision : Nat}

/-! ### Exponents and estimates -/

/-- An exponent that no word of 64 bits can hold is above every limit. -/
theorem lt_natAbs_of_toInt64? (limit : UInt32) (h : toInt64? n = none) :
    limit.toNat < n.natAbs := by
  have bound := limit.toNat_lt
  by_contra small
  have value : n = (Int64.ofInt n).toInt := (Int64.toInt_ofInt_of_le (by omega) (by omega)).symm
  rw [toInt64?_eq_some_iff.mpr value] at h
  cases h

/-- An exponent within the limit fits a word of 32 bits without its sign. -/
theorem exists_toUInt32? {limit : UInt32} (small : n.natAbs ≤ limit.toNat) :
    ∃ w, toUInt32? n.natAbs = some w := by
  have bound := limit.toNat_lt
  refine ⟨.ofNat n.natAbs, toUInt32?_eq_some_iff.mpr ?_⟩
  rw [UInt32.toNat_ofNat', Nat.mod_eq_of_lt (by omega)]

theorem natAbs_le_maxScale {limit : UInt32} (small : n.natAbs ≤ limit.toNat) :
    n.natAbs ≤ maxScale := by
  have bound := limit.toNat_lt
  rw [maxScale]
  omega

/-- Estimates are cut down to the largest word, which no limit below it notices. -/
theorem lt_powerEstimate_iff (h : limits.maxDigits.toNat < maxEstimate) :
    limits.maxDigits.toNat < powerEstimate base n ↔
      limits.maxDigits.toNat < digitEstimate base.significand.natAbs * n.natAbs := by
  rw [powerEstimate, lt_min_iff, and_iff_left h]

/-- The exponent and the estimate of the digits are within the limits. -/
structure Limits.Admits (limits : Limits) (base : Decimal) (n : Int) : Prop where
  exponent_le : n.natAbs ≤ limits.maxExponent.toNat
  estimate_le : powerEstimate base n ≤ limits.maxDigits.toNat

namespace Decimal

/-! ### Powers that are admitted -/

/-- The decimal is the exact power of a base, at the scale that the normal form of the base leads
to. -/
structure IsPower (base : Decimal) (n : Nat) (d : Decimal) : Prop where
  scale_eq : d.scale = base.normalForm.scale * n
  value_eq : d.value = base.value ^ n

/-- There is one such decimal at most. -/
theorem IsPower.unique {n : Nat} {d d' : Decimal} (h : base.IsPower n d) (h' : base.IsPower n d') :
    d = d' :=
  eq_of_value_of_scale (h.value_eq.trans h'.value_eq.symm) (h.scale_eq.trans h'.scale_eq.symm)

theorem pow_of_overflow (large : maxScale < base.normalForm.scale * n.natAbs) :
    base.pow n precision = .error .scaleOverflow :=
  dif_neg fun bounds => Nat.not_le.mpr large bounds.2

/-- A power that can be written is exact; if the exponent is negative, one is divided by it. -/
theorem exists_power (small : n.natAbs ≤ maxScale)
    (fits : base.normalForm.scale * n.natAbs ≤ maxScale) (precision : Nat) :
    ∃ d, base.IsPower n.natAbs d ∧
      base.pow n precision = if n < 0 then one.div d precision else .ok d :=
  ⟨⟨_, _, fits⟩, ⟨rfl, value_power base n.natAbs fits⟩, dif_pos ⟨small, fits⟩⟩

/-- What is admitted is computed. -/
theorem raise_of_admits (integer : exponent.toInteger? = some n) (admits : limits.Admits base n) :
    base.raise limits exponent exponentExpr span
      = (base.pow n limits.precision.toNat).mapError (ArithmeticError.ofPower base span) := by
  rw [raise_of_toInteger? integer admits.exponent_le, allow_eq_ok_iff.mpr admits.estimate_le]
  rfl

/-- A quotient of one is lost to an overflow only, unless its divisor is zero. -/
theorem mapError_reciprocal {d : Decimal} (hd : d.value ≠ 0) :
    (one.div d precision).mapError (ArithmeticError.ofPower base span)
      = (one.div d precision).mapError fun _ => ⟨.scaleOverflow, span.column⟩ := by
  rcases h : one.div d precision with e | q
  · obtain rfl := eq_scaleOverflow_of_div hd h
    rfl
  · rfl

/-! ### Outcomes -/

/-- What becomes of a power whose exponent is the integer `n`. -/
structure Outcome (limits : Limits) (base exponent : Decimal) (exponentExpr : Expr) (span : Span)
    (n : Int) (result : Except EvalError Decimal) : Prop where
  /-- The exponent is above the limit. -/
  exponentTooLarge : limits.maxExponent.toNat < n.natAbs →
    result = .error ⟨.exponentTooLarge exponent.text limits.maxExponent.toNat, exponentExpr.column⟩
  /-- The estimate of the digits is above the limit. -/
  resultTooLarge : n.natAbs ≤ limits.maxExponent.toNat →
    limits.maxDigits.toNat < powerEstimate base n →
      result = .error ⟨.resultTooLarge (powerEstimate base n) limits.maxDigits.toNat, span.column⟩
  /-- The power has too many digits behind its point. -/
  scaleOverflow : limits.Admits base n → maxScale < base.normalForm.scale * n.natAbs →
    result = .error ⟨.scaleOverflow, span.column⟩
  /-- The exponent is not negative, and the power is exact. -/
  power : limits.Admits base n → base.normalForm.scale * n.natAbs ≤ maxScale → 0 ≤ n →
    ∃ d, base.IsPower n.natAbs d ∧ result = .ok d
  /-- The exponent is negative and the base is zero. -/
  divisionByZero : limits.Admits base n → n < 0 → base.value = 0 →
    result = .error ⟨.divisionByZero base.text, span.column⟩
  /-- The exponent is negative and the base is not zero, and one is divided by the exact power. -/
  reciprocal : limits.Admits base n → base.normalForm.scale * n.natAbs ≤ maxScale → n < 0 →
    base.value ≠ 0 → ∃ d, base.IsPower n.natAbs d ∧
      result = (one.div d limits.precision.toNat).mapError fun _ => ⟨.scaleOverflow, span.column⟩

theorem outcome_of_toInteger? (integer : exponent.toInteger? = some n) :
    Outcome limits base exponent exponentExpr span n
      (base.raise limits exponent exponentExpr span) where
  exponentTooLarge large := raise_of_large integer large
  resultTooLarge small large := by
    have refused : limits.allow (powerEstimate base n) span = .error
        ⟨.resultTooLarge (powerEstimate base n) limits.maxDigits.toNat, span.column⟩ := if_pos large
    rw [raise_of_toInteger? integer small, refused]
    rfl
  scaleOverflow admits large := by
    rw [raise_of_admits integer admits, pow_of_overflow large]
    rfl
  power admits fits nonneg := by
    obtain ⟨d, power, eq⟩ :=
      exists_power (natAbs_le_maxScale admits.exponent_le) fits limits.precision.toNat
    refine ⟨d, power, ?_⟩
    rw [raise_of_admits integer admits, eq, if_neg (Int.not_lt.mpr nonneg)]
    rfl
  divisionByZero admits negative hb := by
    -- the normal form of zero has no fraction, so that no power of it has one
    have whole : base.normalForm.scale * n.natAbs ≤ maxScale := by
      rw [normalForm_of_value_eq_zero hb]
      exact (Nat.zero_mul _).trans_le (Nat.zero_le _)
    obtain ⟨d, power, eq⟩ :=
      exists_power (natAbs_le_maxScale admits.exponent_le) whole limits.precision.toNat
    have nothing : d.value = 0 := by
      rw [power.value_eq, hb, zero_pow (Int.natAbs_ne_zero.mpr negative.ne)]
    rw [raise_of_admits integer admits, eq, if_pos negative,
      div_eq_divisionByZero_iff.mpr nothing]
    rfl
  reciprocal admits fits negative hb := by
    obtain ⟨d, power, eq⟩ :=
      exists_power (natAbs_le_maxScale admits.exponent_le) fits limits.precision.toNat
    have something : d.value ≠ 0 := power.value_eq ▸ pow_ne_zero _ hb
    refine ⟨d, power, ?_⟩
    rw [raise_of_admits integer admits, eq, if_pos negative, mapError_reciprocal something]

/-- The cases cover every power, and leave no choice in any of them. -/
theorem Outcome.unique {r r' : Except EvalError Decimal}
    (h : Outcome limits base exponent exponentExpr span n r)
    (h' : Outcome limits base exponent exponentExpr span n r') : r = r' := by
  rcases Nat.lt_or_ge limits.maxExponent.toNat n.natAbs with large | small
  · rw [h.exponentTooLarge large, h'.exponentTooLarge large]
  rcases Nat.lt_or_ge limits.maxDigits.toNat (powerEstimate base n) with large | admitted
  · rw [h.resultTooLarge small large, h'.resultTooLarge small large]
  have admits : limits.Admits base n := ⟨small, admitted⟩
  rcases Nat.lt_or_ge maxScale (base.normalForm.scale * n.natAbs) with large | fits
  · rw [h.scaleOverflow admits large, h'.scaleOverflow admits large]
  rcases Int.lt_or_le n 0 with negative | nonneg
  · by_cases hb : base.value = 0
    · rw [h.divisionByZero admits negative hb, h'.divisionByZero admits negative hb]
    · obtain ⟨d, power, eq⟩ := h.reciprocal admits fits negative hb
      obtain ⟨d', power', eq'⟩ := h'.reciprocal admits fits negative hb
      rw [eq, eq', power.unique power']
  · obtain ⟨d, power, eq⟩ := h.power admits fits nonneg
    obtain ⟨d', power', eq'⟩ := h'.power admits fits nonneg
    rw [eq, eq', power.unique power']

/-- **A power is one of seven outcomes, decided in a fixed order.**  An exponent that is no integer
is refused, then one above the limit, and then a power whose estimated digits are too many; of those
that are left, the scale may be too large, a negative exponent may meet a zero base, and all others
are exact powers or quotients of one.  Estimates are compared as they are, unless the limit is the
largest word.  An exponent within its limit fits the words that hold it. -/
theorem raise_outcome (limits : Limits) (base exponent : Decimal) (exponentExpr : Expr)
    (span : Span) :
    ((∀ n : Int, exponent.value ≠ n) → base.raise limits exponent exponentExpr span
        = .error ⟨.fractionalExponent exponent.text, exponentExpr.column⟩) ∧
      ∀ n : Int, exponent.value = n →
        (∀ result, Outcome limits base exponent exponentExpr span n result ↔
          base.raise limits exponent exponentExpr span = result) ∧
        (limits.maxDigits.toNat < maxEstimate →
          (limits.maxDigits.toNat < powerEstimate base n ↔
            limits.maxDigits.toNat < digitEstimate base.significand.natAbs * n.natAbs)) ∧
        (toInt64? n = none → limits.maxExponent.toNat < n.natAbs) ∧
        (n.natAbs ≤ limits.maxExponent.toNat → ∃ w, toUInt32? n.natAbs = some w) := by
  refine ⟨fun fraction => raise_of_none (toInteger?_eq_none_iff.mpr fraction), fun n value =>
    ⟨fun result => ⟨fun h => ?_, fun h => ?_⟩, lt_powerEstimate_iff,
      lt_natAbs_of_toInt64? limits.maxExponent, exists_toUInt32?⟩⟩
  · exact (outcome_of_toInteger? (toInteger?_eq_some_iff.mpr value)).unique h
  · exact h ▸ outcome_of_toInteger? (toInteger?_eq_some_iff.mpr value)

/-- An integer with a fraction of zeros is an exponent, and a negative one divides. -/
example : (⟨5, 1, by decide⟩ : Decimal).raise .standard ⟨-20, 1, by decide⟩ (.num "-2.0" ⟨4, 8⟩)
    ⟨0, 8⟩ = .ok ⟨400000000000000000000, 20, by decide⟩ := by decide

/-! ### Estimates above the largest word -/

/-- One, with `k` zeros behind its point. -/
def paddedOne (k : Nat) (h : k ≤ maxScale) : Decimal := ⟨10 ^ k, k, h⟩

theorem value_paddedOne (k : Nat) (h : k ≤ maxScale) : (paddedOne k h).value = 1 := by
  rw [value, paddedOne, Int.cast_pow]
  exact div_self (by positivity)

/-- So many of its digits are zeros that the estimate is too large. -/
theorem lt_digitEstimate_paddedOne (k : Nat) (h : k ≤ maxScale) :
    k + k / 10 ^ 9 < digitEstimate (paddedOne k h).significand.natAbs := by
  rw [paddedOne, Int.natAbs_pow]
  exact lt_digitEstimate_ten_pow k

/-- All powers of it are one. -/
theorem isPower_paddedOne (k : Nat) (h : k ≤ maxScale) (n : Nat) :
    (paddedOne k h).IsPower n one := by
  have value : (paddedOne k h).value = one.value := (value_paddedOne k h).trans value_one.symm
  have normal : (paddedOne k h).normalForm = one :=
    (normalForm_eq_iff.mpr value).trans (normalForm_of_canonical (.inl rfl))
  refine ⟨?_, ?_⟩
  · rw [normal]
    exact (Nat.zero_mul n).symm
  · rw [value_paddedOne, one_pow, value_one]

/-- Where the limit is the largest word, no estimate is above it. -/
theorem raise_paddedOne {n k : Nat} (unlimited : limits.maxDigits.toNat = maxEstimate)
    (small : n ≤ limits.maxExponent.toNat) (h : k ≤ maxScale) :
    (paddedOne k h).raise limits (ofInt n) exponentExpr span = .ok one := by
  have admits : limits.Admits (paddedOne k h) n := ⟨small, unlimited ▸ Nat.min_le_right _ _⟩
  have integer : (ofInt n).toInteger? = some (n : Int) :=
    toInteger?_eq_some_iff.mpr (value_ofInt n)
  have power := isPower_paddedOne k h n
  have fits : (paddedOne k h).normalForm.scale * (n : Int).natAbs ≤ maxScale :=
    power.scale_eq ▸ Nat.zero_le _
  obtain ⟨d, isPower, eq⟩ := (outcome_of_toInteger? integer).power admits fits n.cast_nonneg
  rw [eq, isPower.unique power]

/-- The limits that are the largest words. -/
def largestLimits : Limits := { maxExponent := 4294967295, maxDigits := 18446744073709551615 }

/-- One, written with as many zeros as a scale can count, to the largest exponent: more digits are
estimated than the largest word says, and the power is one nevertheless. -/
theorem raise_paddedOne_estimated :
    (ofInt 4294967295).value = (4294967295 : Int) ∧
      (4294967295 : Int).natAbs ≤ largestLimits.maxExponent.toNat ∧
      largestLimits.maxDigits.toNat
        < digitEstimate (paddedOne 4294967295 (by decide)).significand.natAbs
          * (4294967295 : Int).natAbs ∧
      (paddedOne 4294967295 (by decide)).raise largestLimits (ofInt 4294967295)
          (.num "4294967295" ⟨7, 17⟩) ⟨0, 17⟩ = .ok one := by
  have small : 4294967295 ≤ largestLimits.maxExponent.toNat := by decide
  have estimate := lt_digitEstimate_paddedOne 4294967295 (by decide)
  have unlimited : largestLimits.maxDigits.toNat = maxEstimate := rfl
  refine ⟨value_ofInt _, small, ?_, raise_paddedOne (n := 4294967295) unlimited small _⟩
  calc largestLimits.maxDigits.toNat < (4294967295 + 4294967295 / 10 ^ 9) * 4294967295 := by decide
    _ ≤ digitEstimate (paddedOne 4294967295 (by decide)).significand.natAbs * 4294967295 :=
      Nat.mul_le_mul_right _ estimate.le

end Decimal
end Calculator
