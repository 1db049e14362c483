import Mathlib.Algebra.Order.Round
import Mathlib.Data.Int.Log
import Mathlib.Data.Rat.Floor
import Mathlib.Tactic.LinearCombination
import Calculator.Proofs.NormalForm

/-!
# Numbers — quotients and powers of rational numbers

What `Decimal.div` and `Decimal.pow` compute, said of the rational numbers that decimals stand for:
neither sees more of its operands than their values.

* `Decimal.magnitude_eq`: the magnitude of a decimal is that of its value.
* `rounded_eq_nearest`: a quotient of integers is rounded to the nearest integer, halves away from
  zero.
* `Decimal.mul_agrees`, `Decimal.div_agrees`, `Decimal.pow_agrees`: products, quotients and powers
  have the values that the values of the operands ask for.
-/

namespace Calculator

/-! ### Magnitudes -/

/-- The number of digits in front of the point, which is not positive if the first digit that counts
comes later. -/
def magnitudeOf (q : ℚ) : Int := Int.log 10 |q| + 1

theorem magnitudeOf_eq_iff {q : ℚ} (hq : q ≠ 0) {m : Int} :
    magnitudeOf q = m ↔ (10 : ℚ) ^ (m - 1) ≤ |q| ∧ |q| < 10 ^ m := by
  have pos : 0 < |q| := abs_pos.mpr hq
  have lower := Int.zpow_le_iff_le_log (R := ℚ) (b := 10) (by norm_num) (x := m - 1) pos
  have upper := Int.lt_zpow_iff_log_lt (R := ℚ) (b := 10) (by norm_num) (x := m) pos
  push_cast at lower upper
  rw [lower, upper, magnitudeOf]
  omega

/-- The magnitude of a decimal is that of its value. -/
theorem Decimal.magnitude_eq {d : Decimal} (hd : d.significand ≠ 0) :
    d.magnitude = magnitudeOf d.value := by
  have hn : d.significand.natAbs ≠ 0 := Int.natAbs_ne_zero.mpr hd
  have pos : (0 : ℚ) < 10 ^ d.scale := by positivity
  have abs : |d.value| = (d.significand.natAbs : ℚ) / 10 ^ d.scale := by
    rw [value, abs_div, abs_of_pos pos, Nat.cast_natAbs, Int.cast_abs]
  have one : 1 ≤ digitLength d.significand.natAbs := one_le_digitLength _
  refine ((magnitudeOf_eq_iff (mt (value_eq_zero_iff d).mp hd)).mpr ⟨?_, ?_⟩).symm
  · have lower : ((10 : ℕ) ^ (digitLength d.significand.natAbs - 1) : ℚ)
        ≤ d.significand.natAbs := by
      exact_mod_cast ten_pow_le hn
    have e : d.magnitude - 1
        = ((digitLength d.significand.natAbs - 1 : ℕ) : ℤ) - (d.scale : ℕ) := by
      rw [magnitude]
      omega
    rw [abs, e, zpow_sub₀ (by norm_num), zpow_natCast, zpow_natCast]
    gcongr
    exact_mod_cast lower
  · have upper : (d.significand.natAbs : ℚ) < (10 : ℕ) ^ digitLength d.significand.natAbs := by
      exact_mod_cast lt_ten_pow_digitLength _
    rw [abs, magnitude, zpow_sub₀ (by norm_num), zpow_natCast, zpow_natCast]
    gcongr
    exact_mod_cast upper

/-! ### Rounding -/

/-- The nearest integer; a half goes away from zero. -/
def nearest (q : ℚ) : Int := if q < 0 then -round (-q) else round q

theorem round_natCast_div {n d : Nat} (hd : d ≠ 0) :
    round ((n : ℚ) / d) = ((2 * n + d) / (2 * d) : Nat) := by
  have half : (n : ℚ) / d + 1 / 2 = ((2 * n + d : ℕ) : ℚ) / (2 * d : ℕ) := by
    have : (d : ℚ) ≠ 0 := by exact_mod_cast hd
    push_cast
    field_simp
  rw [round_eq, half, Rat.floor_natCast_div_natCast]
  rfl

theorem nearest_natCast_div {n d : Nat} (hd : d ≠ 0) :
    nearest ((n : ℚ) / d) = ((2 * n + d) / (2 * d) : Nat) := by
  rw [nearest, if_neg (not_lt.mpr (by positivity)), round_natCast_div hd]

theorem nearest_neg (q : ℚ) : nearest (-q) = -nearest q := by
  rcases lt_trichotomy q 0 with h | rfl | h
  · rw [nearest, nearest, if_neg (by linarith), if_pos h, neg_neg]
  · simp [nearest]
  · rw [nearest, nearest, if_pos (by linarith), if_neg (by linarith), neg_neg]

theorem sign_mul_sign_self {d : Int} (hd : d ≠ 0) : d.sign * d.sign = 1 := by
  rcases Int.lt_or_gt_of_ne hd with h | h
  · rw [Int.sign_eq_neg_one_of_neg h]; rfl
  · rw [Int.sign_eq_one_of_pos h]; rfl

/-- Quotients of integers are rounded to the nearest integer, halves away from zero. -/
theorem rounded_eq_nearest (n : Int) {d : Int} (hd : d ≠ 0) : rounded n d = nearest (n / d) := by
  have hk : d.natAbs ≠ 0 := Int.natAbs_ne_zero.mpr hd
  have quotient : (n : ℚ) / d = (n.sign * d.sign : Int) * ((n.natAbs : ℚ) / d.natAbs) := by
    have hs : (d.sign : ℚ) * d.sign = 1 := by exact_mod_cast sign_mul_sign_self hd
    have hd' : (d : ℚ) ≠ 0 := by exact_mod_cast hd
    have en : (n : ℚ) = n.sign * (|n| : Int) := by exact_mod_cast (Int.sign_mul_abs n).symm
    have ed : (d : ℚ) = d.sign * (|d| : Int) := by exact_mod_cast (Int.sign_mul_abs d).symm
    have hk' : ((|d| : Int) : ℚ) ≠ 0 := by exact_mod_cast abs_ne_zero.mpr hd
    rw [Nat.cast_natAbs, Nat.cast_natAbs, Int.cast_mul]
    field_simp
    linear_combination (|d| : Int) * en - n.sign * d.sign * (|n| : Int) * ed
      - n.sign * (|n| : Int) * (|d| : Int) * hs
  rw [rounded, quotient, ← Int.sign_mul]
  rcases Int.sign_trichotomy (n * d) with h | h | h
  · rw [h, Int.cast_one, one_mul, one_mul, nearest_natCast_div hk]
  · rw [h, Int.cast_zero, zero_mul, zero_mul]
    simp [nearest]
  · rw [h, Int.cast_neg, Int.cast_one, neg_one_mul, neg_one_mul, nearest_neg,
      nearest_natCast_div hk]

/-! ### Exact results -/

/-- A result agrees with an exact value that may be missing: it is that value, and there is a fault
only if there is no value, or for want of space. -/
def Agrees {ε : Type} (Overflow : ε → Prop) : Except ε Decimal → Option ℚ → Prop
  | .ok d, v => v = some d.value
  | .error e, v => Overflow e ∨ v = none

/-- The fractional digits of a quotient: `precision`, and one more for each zero behind its point
that the operands call for. -/
def quotientPlaces (precision : Nat) (x y : ℚ) : Nat :=
  precision + (magnitudeOf y - magnitudeOf x).toNat

/-- The quotient of two numbers, rounded to its places. -/
def quotient? (precision : Nat) (x y : ℚ) : Option ℚ :=
  if y = 0 then none
  else if x = 0 then some 0
  else
    let places := quotientPlaces precision x y
    some (nearest (x / y * 10 ^ places) / 10 ^ places)

/-- An integer power.  A negative exponent asks for a quotient of one, which zero does not have. -/
def integerPower? (precision : Nat) (x : ℚ) (n : Int) : Option ℚ :=
  if 0 ≤ n then some (x ^ n.natAbs) else quotient? precision 1 (x ^ n.natAbs)

namespace Decimal

/-- Products are exact. -/
theorem mul_agrees (a b : Decimal) :
    Agrees (· = .scaleOverflow) (a.mul b) (some (a.value * b.value)) := by
  rcases h : a.mul b with e | d
  · rw [mul] at h
    split at h <;> cases h
    exact .inl rfl
  · exact congrArg some (value_mul h).symm

/-- The integers that are divided, over one another, are the quotient counted in its units. -/
theorem shifted_div (a : Decimal) {b : Decimal} (hb : b.significand ≠ 0) (scale : Nat) :
    ((a.significand * 10 ^ (quotientShift a b scale).toNat : Int) : ℚ)
        / (b.significand * 10 ^ (-quotientShift a b scale).toNat : Int)
      = a.value / b.value * 10 ^ scale := by
  have hb' : (b.significand : ℚ) ≠ 0 := by exact_mod_cast hb
  have shift : (quotientShift a b scale).toNat + a.scale
      = (-quotientShift a b scale).toNat + b.scale + scale := by
    rw [quotientShift]
    omega
  have powers : (10 : ℚ) ^ (quotientShift a b scale).toNat * 10 ^ a.scale
      = 10 ^ (-quotientShift a b scale).toNat * 10 ^ b.scale * 10 ^ scale := by
    rw [← pow_add, shift, pow_add, pow_add]
  rw [value, value]
  push_cast
  field_simp
  linear_combination a.significand * powers

theorem quotientScale_eq {a b : Decimal} (ha : a.significand ≠ 0) (hb : b.significand ≠ 0)
    (precision : Nat) : quotientScale a b precision = quotientPlaces precision a.value b.value := by
  rw [quotientScale, quotientPlaces, magnitude_eq ha, magnitude_eq hb]

/-- What division returns: zero, or the shifted significands rounded. -/
theorem div_eq_ok_cases {a b d : Decimal} {precision : Nat} (h : a.div b precision = .ok d) :
    b.significand ≠ 0 ∧ (a.significand = 0 ∧ d = zero ∨
      a.significand ≠ 0 ∧ d.scale = quotientScale a b precision ∧
        d.significand = rounded (a.significand * 10 ^ (quotientShift a b d.scale).toNat)
          (b.significand * 10 ^ (-quotientShift a b d.scale).toNat)) := by
  rw [div] at h
  by_cases hb : b.significand = 0
  · rw [if_pos hb] at h
    cases h
  refine ⟨hb, ?_⟩
  rw [if_neg hb] at h
  by_cases ha : a.significand = 0
  · rw [if_pos ha] at h
    cases h
    exact .inl ⟨ha, rfl⟩
  · rw [if_neg ha] at h
    dsimp only at h
    split at h <;> cases h
    exact .inr ⟨ha, rfl, rfl⟩

/-- A quotient has the value and the places that the values of the operands ask for. -/
theorem div_eq_ok {a b d : Decimal} {precision : Nat} (h : a.div b precision = .ok d) :
    quotient? precision a.value b.value = some d.value ∧
      d.scale = if a.value = 0 then 0 else quotientPlaces precision a.value b.value := by
  obtain ⟨hb, ⟨ha, rfl⟩ | ⟨ha, scale, significand⟩⟩ := div_eq_ok_cases h
  · have hx : a.value = 0 := (value_eq_zero_iff a).mpr ha
    rw [quotient?, if_neg (mt (value_eq_zero_iff b).mp hb), if_pos hx, if_pos hx, value_zero]
    exact ⟨rfl, rfl⟩
  · have hx : a.value ≠ 0 := mt (value_eq_zero_iff a).mp ha
    have places := scale.trans (quotientScale_eq ha hb precision)
    have hd : b.significand * 10 ^ (-quotientShift a b d.scale).toNat ≠ 0 :=
      mul_ne_zero hb (by positivity)
    rw [quotient?, if_neg (mt (value_eq_zero_iff b).mp hb), if_neg hx, if_neg hx]
    refine ⟨?_, places⟩
    dsimp only
    rw [← places, ← shifted_div a hb, ← rounded_eq_nearest _ hd, ← significand, value]

theorem div_eq_error {a b : Decimal} {precision : Nat} {e : ArithmeticError}
    (h : a.div b precision = .error e) :
    e = .scaleOverflow ∨ e = .divisionByZero ∧ b.value = 0 := by
  rw [div] at h
  by_cases hb : b.significand = 0
  · rw [if_pos hb] at h
    cases h
    exact .inr ⟨rfl, (value_eq_zero_iff b).mpr hb⟩
  rw [if_neg hb] at h
  by_cases ha : a.significand = 0
  · rw [if_pos ha] at h
    cases h
  · rw [if_neg ha] at h
    dsimp only at h
    split at h <;> cases h
    exact .inl rfl

/-- A quotient by a divisor other than zero is lost to an overflow only. -/
theorem eq_scaleOverflow_of_div {a b : Decimal} {precision : Nat} {e : ArithmeticError}
    (hb : b.value ≠ 0) (h : a.div b precision = .error e) : e = .scaleOverflow :=
  (div_eq_error h).resolve_right fun zero => hb zero.2

/-- Quotients are what the values of the operands ask for. -/
theorem div_agrees (a b : Decimal) (precision : Nat) :
    Agrees (· = .scaleOverflow) (a.div b precision) (quotient? precision a.value b.value) := by
  rcases h : a.div b precision with e | d
  · refine (div_eq_error h).imp id fun ⟨_, zero⟩ => ?_
    rw [quotient?, if_pos zero]
  · exact (div_eq_ok h).1

/-- The power that is taken of the normal form of a base. -/
theorem value_power (a : Decimal) (n : Nat) (le : a.normalForm.scale * n ≤ maxScale) :
    (⟨a.normalForm.significand ^ n, a.normalForm.scale * n, le⟩ : Decimal).value = a.value ^ n := by
  rw [← value_normalForm a, value, value]
  push_cast
  rw [div_pow, pow_mul]

/-- Powers are what the value of the base asks for. -/
theorem pow_agrees (a : Decimal) (n : Int) (precision : Nat) :
    Agrees (· = .scaleOverflow) (a.pow n precision) (integerPower? precision a.value n) := by
  rw [pow]
  dsimp only
  split
  · rename_i bounds
    have power := value_power a n.natAbs bounds.2
    rw [integerPower?]
    by_cases negative : n < 0
    · rw [if_pos negative, if_neg (not_le.mpr negative), ← power, ← value_one]
      exact div_agrees _ _ _
    · rw [if_neg negative, if_pos (not_lt.mp negative), ← power]
      rfl
  · exact .inl rfl

end Decimal
end Calculator
