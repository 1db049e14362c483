import Calculator.Proofs.Estimates
import Calculator.Proofs.Quotient

/-!
# Numbers — rounded quotients

What it means that a quotient is rounded, without saying how: its significand is the integer nearest
to the quotient counted in units of its scale.  The scale is chosen from the magnitudes of the
operands, and is large enough for the digits that the precision asks for.

* `isNearest_nearest`: `nearest` rounds to the nearest integer, and a tie away from zero.
* `ten_zpow_lt_abs_quotient`: a quotient counted in its units has the digits of the precision in
  front of the point.
* `Decimal.div_isNearest`: **division rounds correctly and keeps its precision**.
-/

namespace Calculator

/-! ### The nearest integer -/

/-- No integer is nearer to the number, and of two that are equally near this is the one further
from zero. -/
structure IsNearest (x : ℚ) (n : Int) : Prop where
  abs_sub_le : ∀ m : Int, |x - n| ≤ |x - m|
  away : ∀ m : Int, |x - m| = |x - n| → |m| ≤ |n|

namespace IsNearest

variable {x : ℚ} {n : Int}

theorem neg (h : IsNearest x n) : IsNearest (-x) (-n) := by
  have mirror (m : Int) : |-x - m| = |x - (-m : Int)| := by
    rw [← abs_neg]
    push_cast
    ring_nf
  have mirror_n : |-x - (-n : Int)| = |x - n| := by rw [mirror, neg_neg]
  refine ⟨fun m => ?_, fun m tie => ?_⟩
  · rw [mirror_n, mirror m]
    exact h.abs_sub_le (-m)
  · rw [mirror_n, mirror m] at tie
    rw [← abs_neg m, abs_neg n]
    exact h.away (-m) tie

theorem abs_sub_le_half (h : IsNearest x n) : |x - n| ≤ 1 / 2 :=
  (h.abs_sub_le (round x)).trans (abs_sub_round x)

/-- An integer is nearest to itself only. -/
theorem eq_of_intCast {k : Int} (h : IsNearest k n) : n = k := by
  have le := h.abs_sub_le k
  rw [sub_self, abs_zero] at le
  have zero : (k : ℚ) - n = 0 := abs_nonpos_iff.mp le
  exact_mod_cast (sub_eq_zero.mp zero).symm

/-- Rounding does not go below a bound that is an integer. -/
theorem le_natAbs {k : Nat} (h : IsNearest x n) (le : (k : ℚ) ≤ |x|) : k ≤ n.natAbs := by
  have near := h.abs_sub_le_half
  have far : |x| - |(n : ℚ)| ≤ |x - n| := abs_sub_abs_le_abs_sub x n
  have lt : (k : ℚ) < ((n.natAbs + 1 : Nat) : ℚ) := by
    rw [Nat.cast_add, Nat.cast_natAbs, Int.cast_abs, Nat.cast_one]
    linarith
  exact Nat.lt_succ_iff.mp (Nat.cast_lt.mp lt)

end IsNearest

theorem isNearest_round {x : ℚ} (hx : 0 ≤ x) : IsNearest x (round x) := by
  have lower : ((round x : Int) : ℚ) ≤ x + 1 / 2 := round_eq x ▸ Int.floor_le _
  have upper : x + 1 / 2 < (round x : Int) + 1 := round_eq x ▸ Int.lt_floor_add_one _
  have near : |x - round x| ≤ 1 / 2 := abs_sub_round x
  have positive : 0 ≤ round x := by
    rw [round_eq]
    exact Int.floor_nonneg.mpr (by linarith)
  refine ⟨fun m => round_le x m, fun m tie => ?_⟩
  have within := abs_le.mp (tie.le.trans near)
  have m_nonneg : 0 ≤ m := by
    have above : ((-1 : Int) : ℚ) < m := by
      push_cast
      linarith [within.2]
    exact Int.lt_iff_add_one_le.mp (Int.cast_lt.mp above)
  rw [abs_of_nonneg m_nonneg, abs_of_nonneg positive]
  -- an integer further up is more than a half away
  have below : (m : ℚ) < ((round x + 1 : Int) : ℚ) := by
    push_cast
    linarith [within.1]
  exact Int.lt_add_one_iff.mp (Int.cast_lt.mp below)

/-- A number is rounded to the nearest integer, and a tie away from zero. -/
theorem isNearest_nearest (x : ℚ) : IsNearest x (nearest x) := by
  rw [nearest]
  split
  · rename_i negative
    have mirrored := (isNearest_round (neg_nonneg.mpr negative.le)).neg
    rwa [neg_neg] at mirrored
  · rename_i positive
    exact isNearest_round (not_lt.mp positive)

/-! ### The digits of a quotient -/

/-- What the magnitudes of the operands say of their quotient. -/
theorem ten_zpow_lt_abs_div {x y : ℚ} (hx : x ≠ 0) (hy : y ≠ 0) :
    (10 : ℚ) ^ (magnitudeOf x - magnitudeOf y - 1) < |x / y| := by
  have lower := ((magnitudeOf_eq_iff hx).mp rfl).1
  have upper := ((magnitudeOf_eq_iff hy).mp rfl).2
  have power : (0 : ℚ) < 10 ^ (magnitudeOf x - magnitudeOf y - 1) := zpow_pos (by norm_num) _
  rw [abs_div, lt_div_iff₀ (abs_pos.mpr hy)]
  calc (10 : ℚ) ^ (magnitudeOf x - magnitudeOf y - 1) * |y|
      < 10 ^ (magnitudeOf x - magnitudeOf y - 1) * 10 ^ magnitudeOf y :=
        mul_lt_mul_of_pos_left upper power
    _ = 10 ^ (magnitudeOf x - 1) := by
        rw [← zpow_add₀ (by norm_num)]
        congr 1
        ring
    _ ≤ |x| := lower

/-- Counted in units of its places, a quotient has as many digits in front of the point as the
precision says. -/
theorem ten_zpow_lt_abs_quotient {x y : ℚ} (hx : x ≠ 0) (hy : y ≠ 0) (precision : Nat) :
    (10 : ℚ) ^ ((precision : Int) - 1) < |x / y| * 10 ^ quotientPlaces precision x y := by
  have places : (precision : Int) - 1
      ≤ magnitudeOf x - magnitudeOf y - 1 + (quotientPlaces precision x y : Nat) := by
    rw [quotientPlaces]
    omega
  calc (10 : ℚ) ^ ((precision : Int) - 1)
      ≤ 10 ^ (magnitudeOf x - magnitudeOf y - 1 + (quotientPlaces precision x y : Nat)) :=
        zpow_le_zpow_right₀ (by norm_num) places
    _ = 10 ^ (magnitudeOf x - magnitudeOf y - 1) * 10 ^ quotientPlaces precision x y := by
        rw [zpow_add₀ (by norm_num), zpow_natCast]
    _ < |x / y| * 10 ^ quotientPlaces precision x y :=
        mul_lt_mul_of_pos_right (ten_zpow_lt_abs_div hx hy) (by positivity)

/-! ### Division -/

namespace Decimal

variable {a b q : Decimal} {precision : Nat}

theorem div_eq_divisionByZero_iff :
    a.div b precision = .error .divisionByZero ↔ b.value = 0 := by
  refine ⟨fun h => ?_, fun h => ?_⟩
  · rcases div_eq_error h with overflow | ⟨-, zero⟩
    · cases overflow
    · exact zero
  · rw [div, if_pos ((value_eq_zero_iff b).mp h)]

theorem zero_div (ha : a.value = 0) (hb : b.value ≠ 0) : a.div b precision = .ok zero := by
  rw [div, if_neg (mt (value_eq_zero_iff b).mpr hb), if_pos ((value_eq_zero_iff a).mp ha)]

/-- The places of a quotient and its significand, if it is not zero by its dividend. -/
theorem isNearest_of_div (h : a.div b precision = .ok q) (ha : a.value ≠ 0) :
    b.value ≠ 0 ∧ q.scale = quotientScale a b precision ∧
      q.scale = quotientPlaces precision a.value b.value ∧
        IsNearest (a.value / b.value * 10 ^ q.scale) q.significand := by
  have ha' : a.significand ≠ 0 := mt (value_eq_zero_iff a).mpr ha
  obtain ⟨hb, ⟨zero, -⟩ | ⟨-, scale, significand⟩⟩ := div_eq_ok_cases h
  · exact absurd zero ha'
  refine ⟨mt (value_eq_zero_iff b).mp hb, scale, scale.trans (quotientScale_eq ha' hb precision), ?_⟩
  have divisor : b.significand * 10 ^ (-quotientShift a b q.scale).toNat ≠ 0 :=
    mul_ne_zero hb (by positivity)
  rw [significand, rounded_eq_nearest _ divisor, shifted_div a hb]
  exact isNearest_nearest _

/-- A quotient that has no more fractional digits than are kept is exact. -/
theorem value_of_isNearest {x : ℚ} (h : IsNearest (x * 10 ^ q.scale) q.significand) {k : Int}
    {n : Nat} (places : n ≤ q.scale) (hx : x = k / 10 ^ n) : q.value = x := by
  have units : x * 10 ^ q.scale = (k * 10 ^ (q.scale - n) : Int) := by
    rw [hx, ← Nat.sub_add_cancel places, pow_add, Nat.add_sub_cancel]
    push_cast
    field_simp
  have exact_units : (q.significand : ℚ) = x * 10 ^ q.scale := by
    rw [units] at h ⊢
    exact congrArg Int.cast h.eq_of_intCast
  rw [value, exact_units]
  field_simp

/-- The error is at most half a unit, which is little of a quotient with enough digits. -/
theorem abs_value_sub_le {x : ℚ} (h : IsNearest (x * 10 ^ q.scale) q.significand)
    (digits : (10 : ℚ) ^ ((precision : Int) - 1) < |x| * 10 ^ q.scale) :
    |q.value - x| ≤ 1 / 2 * 10 ^ (1 - (precision : Int)) * |x| := by
  have unit : (0 : ℚ) < 10 ^ q.scale := by positivity
  have error : |q.value - x| * 10 ^ q.scale ≤ 1 / 2 := by
    have scaled : (q.value - x) * 10 ^ q.scale = -(x * 10 ^ q.scale - q.significand) := by
      rw [value]
      field_simp
      ring
    calc |q.value - x| * 10 ^ q.scale
        = |(q.value - x) * 10 ^ q.scale| := by rw [abs_mul, abs_of_pos unit]
      _ = |x * 10 ^ q.scale - q.significand| := by rw [scaled, abs_neg]
      _ ≤ 1 / 2 := h.abs_sub_le_half
  have one : (10 : ℚ) ^ (1 - (precision : Int)) * 10 ^ ((precision : Int) - 1) = 1 := by
    rw [← zpow_add₀ (by norm_num)]
    norm_num
  have relative : (0 : ℚ) ≤ 10 ^ (1 - (precision : Int)) := zpow_nonneg (by norm_num) _
  refine le_of_mul_le_mul_right ?_ unit
  calc |q.value - x| * 10 ^ q.scale
      ≤ 1 / 2 * (10 ^ (1 - (precision : Int)) * 10 ^ ((precision : Int) - 1)) := by
        rw [one, mul_one]
        exact error
    _ ≤ 1 / 2 * (10 ^ (1 - (precision : Int)) * (|x| * 10 ^ q.scale)) := by
        gcongr
    _ = 1 / 2 * 10 ^ (1 - (precision : Int)) * |x| * 10 ^ q.scale := by ring

/-- Enough digits in front of the point are not lost by rounding. -/
theorem ten_pow_le_significand {x : ℚ} (h : IsNearest (x * 10 ^ q.scale) q.significand)
    (digits : (10 : ℚ) ^ ((precision : Int) - 1) < |x| * 10 ^ q.scale) (one : 1 ≤ precision) :
    10 ^ (precision - 1) ≤ q.significand.natAbs := by
  have unit : (0 : ℚ) < 10 ^ q.scale := by positivity
  have power : (((10 : Nat) ^ (precision - 1) : Nat) : ℚ) = 10 ^ ((precision : Int) - 1) := by
    rw [Nat.cast_pow, ← zpow_natCast, Nat.cast_sub one]
    rfl
  refine h.le_natAbs ?_
  rw [power, abs_mul, abs_of_pos unit]
  exact digits.le

/-- **Division rounds correctly and keeps its precision.**  It fails for a zero divisor, with the
fault that says so for no other, and a zero dividend has the quotient zero.  Any other quotient that
it returns has the scale that the magnitudes ask for, and the nearest significand at this scale, so
that nothing is lost if the quotient has no more fractional digits.  With a precision of one digit
or more it is not zero, it has as many digits as the precision says, and its error is at most half a
unit of the last of them. -/
theorem div_isNearest (a b : Decimal) (precision : Nat) :
    (a.div b precision = .error .divisionByZero ↔ b.value = 0) ∧
      (a.value = 0 → b.value ≠ 0 → a.div b precision = .ok zero) ∧
      ∀ q, a.div b precision = .ok q → a.value ≠ 0 →
        (q.scale : Int) = precision + max 0 (b.magnitude - a.magnitude) ∧
          IsNearest (a.value / b.value * 10 ^ q.scale) q.significand ∧
          (∀ (k : Int) (n : Nat), n ≤ q.scale → a.value / b.value = k / 10 ^ n →
            q.value = a.value / b.value) ∧
          (1 ≤ precision →
            10 ^ (precision - 1) ≤ q.significand.natAbs ∧ q.value ≠ 0 ∧
              precision ≤ digitLength q.significand.natAbs ∧
              |q.value - a.value / b.value|
                ≤ 1 / 2 * 10 ^ (1 - (precision : Int)) * |a.value / b.value|) := by
  refine ⟨div_eq_divisionByZero_iff, zero_div, fun q h ha => ?_⟩
  obtain ⟨hb, scale, places, near⟩ := isNearest_of_div h ha
  refine ⟨?_, near, fun k n => value_of_isNearest near, fun one => ?_⟩
  · rw [scale, quotientScale]
    omega
  have digits := ten_zpow_lt_abs_quotient ha hb precision
  rw [← places] at digits
  have large := ten_pow_le_significand near digits one
  have positive : 0 < q.significand.natAbs := (Nat.pow_pos (by decide)).trans_le large
  exact ⟨large, mt (value_eq_zero_iff q).mp (Int.natAbs_pos.mp positive),
    le_digitLength one large, abs_value_sub_le near digits⟩

/-- A tie goes away from zero. -/
example : (ofInt (-1)).div (ofInt 8) 2 = .ok ⟨-13, 2, by decide⟩ := by decide

end Decimal
end Calculator
