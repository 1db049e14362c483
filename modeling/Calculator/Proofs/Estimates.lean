import Mathlib.Algebra.Ring.Nat
import Mathlib.Data.Nat.Log
import Calculator.Digits

/-!
# Numbers — estimates of digits

The digits of a number are estimated from its bits: `30103 / 100000` of a digit for a bit, which is
just above the logarithm of two.  So an estimate is never too small, however many bits there are,
and it is too large by little: by one digit at most for `10 ^ 8` bits, and for powers of ten by a
digit and another one for each `10 ^ 9` digits at least.

* `pow_le_pow_of_fraction`: powers of two numbers are compared by a fraction for the logarithm.
* `digitLength_le_digitEstimate`: a number has no more digits than its estimate says.
* `digitEstimate_le_succ`: an estimate is at most one digit too large.
* `lt_digitEstimate_ten_pow`: the estimates of powers of ten get ever further from their digits.
* `digitLength_mul_le`, `digitLength_add_le`, `digitLength_pow_le`: the digits of products and
  powers.
-/

namespace Calculator

/-! ### Bits and digits -/

theorem bitLength_mono {m n : Nat} (h : m ≤ n) : bitLength m ≤ bitLength n := by
  by_cases hm : m = 0
  · rw [bitLength, if_pos hm]
    exact Nat.zero_le _
  · have hn : n ≠ 0 := fun hn => hm (Nat.le_zero.mp (hn ▸ h))
    rw [bitLength, bitLength, if_neg hm, if_neg hn, Nat.log2_eq_log_two, Nat.log2_eq_log_two]
    exact Nat.succ_le_succ (Nat.log_mono_right h)

/-- A number that reaches a power of two has more bits than the exponent says. -/
theorem lt_bitLength {m n : Nat} (le : 2 ^ m ≤ n) : m < bitLength n :=
  (Nat.pow_lt_pow_iff_right (by decide)).mp (le.trans_lt (lt_two_pow_bitLength n))

/-- A number with at least as many digits as the power of ten. -/
theorem le_digitLength {n k : Nat} (hk : 1 ≤ k) (le : 10 ^ (k - 1) ≤ n) : k ≤ digitLength n := by
  have lt : 10 ^ (k - 1) < 10 ^ digitLength n := le.trans_lt (lt_ten_pow_digitLength n)
  have := (Nat.pow_lt_pow_iff_right (by decide)).mp lt
  omega

/-! ### Logarithms as fractions -/

/-- A power of `a` is at most a power of `b` if there is room for it by a fraction `p / q` that is
at least the logarithm of `a` to the base `b`. -/
theorem pow_le_pow_of_fraction {a b p q m n : Nat} (hb : 0 < b) (hq : q ≠ 0)
    (fraction : a ^ q ≤ b ^ p) (room : p * m ≤ n * q) : a ^ m ≤ b ^ n := by
  -- the fraction of the logarithm is compared where it is an integer
  refine (Nat.pow_le_pow_iff_left hq).mp ?_
  calc (a ^ m) ^ q = (a ^ q) ^ m := pow_right_comm a m q
    _ ≤ (b ^ p) ^ m := Nat.pow_le_pow_left fraction m
    _ = b ^ (p * m) := (pow_mul b p m).symm
    _ ≤ b ^ (n * q) := Nat.pow_le_pow_right hb room
    _ = (b ^ n) ^ q := pow_mul b n q

/-- The logarithm of two is less than `30103 / 100000`. -/
theorem two_pow_100000_le : 2 ^ 100000 ≤ 10 ^ 30103 := by decide +kernel

/-- The logarithm of two is more than `8651 / 28738`. -/
theorem ten_pow_8651_le : 10 ^ 8651 ≤ 2 ^ 28738 := by decide +kernel

/-- The logarithm of two is less than `4004 / 13301`. -/
theorem two_pow_13301_le : 2 ^ 13301 ≤ 10 ^ 4004 := by decide +kernel

/-- The estimate has room for all numbers of so many bits. -/
theorem two_pow_le_ten_pow (bits : Nat) : 2 ^ bits ≤ 10 ^ (bits * 30103 / 100000 + 1) := by
  have room : 30103 * bits ≤ (bits * 30103 / 100000 + 1) * 100000 := by omega
  exact pow_le_pow_of_fraction (by decide) (by decide) two_pow_100000_le room

/-- The smallest number of so many bits has all the digits that are estimated but one. -/
theorem ten_pow_le_two_pow {bits : Nat} (few : bits ≤ 10 ^ 8) :
    10 ^ (bits * 30103 / 100000 - 1) ≤ 2 ^ (bits - 1) := by
  refine pow_le_pow_of_fraction (by decide) (by decide) ten_pow_8651_le ?_
  -- the fractions differ by less than `5 / 10 ^ 9`, which `few` keeps below half a digit
  omega

/-! ### Estimates -/

theorem digitEstimate_mono {m n : Nat} (h : m ≤ n) : digitEstimate m ≤ digitEstimate n :=
  Nat.succ_le_succ (Nat.div_le_div_right (Nat.mul_le_mul_right _ (bitLength_mono h)))

/-- A number has no more digits than its estimate says. -/
theorem digitLength_le_digitEstimate (n : Nat) : digitLength n ≤ digitEstimate n :=
  (digitLength_le_iff (Nat.le_add_left 1 _)).mpr
    ((lt_two_pow_bitLength n).trans_le (two_pow_le_ten_pow (bitLength n)))

/-- A number of so few bits has at most one digit less than is estimated. -/
theorem digitEstimate_le_succ {n : Nat} (hn : n ≠ 0) (few : bitLength n ≤ 10 ^ 8) :
    digitEstimate n ≤ digitLength n + 1 := by
  have reached : 10 ^ (bitLength n * 30103 / 100000 - 1) ≤ n :=
    (ten_pow_le_two_pow few).trans (two_pow_le hn)
  refine Nat.succ_le_succ ?_
  rcases Nat.eq_zero_or_pos (bitLength n * 30103 / 100000) with none | some
  · exact none.trans_le (Nat.zero_le _)
  · exact le_digitLength some reached

/-- The estimate of a power of ten is too large by a digit for each `10 ^ 9` of its digits. -/
theorem lt_digitEstimate_ten_pow (k : Nat) : k + k / 10 ^ 9 < digitEstimate (10 ^ k) := by
  have room : 4004 * (k * 13301 / 4004) ≤ k * 13301 := Nat.mul_div_le _ _
  have bits : k * 13301 / 4004 < bitLength (10 ^ k) :=
    lt_bitLength (pow_le_pow_of_fraction (by decide) (by decide) two_pow_13301_le room)
  rw [digitEstimate]
  omega

/-! ### Digits of products and powers -/

theorem digitLength_mul_le (m n : Nat) : digitLength (m * n) ≤ digitLength m + digitLength n := by
  refine (digitLength_le_iff ((one_le_digitLength m).trans (Nat.le_add_right _ _))).mpr ?_
  calc m * n < 10 ^ digitLength m * 10 ^ digitLength n :=
        Nat.mul_lt_mul'' (lt_ten_pow_digitLength m) (lt_ten_pow_digitLength n)
    _ = 10 ^ (digitLength m + digitLength n) := (pow_add 10 _ _).symm

/-- A product has all the digits of its factors, or one less. -/
theorem digitLength_add_le {m n : Nat} (hm : m ≠ 0) (hn : n ≠ 0) :
    digitLength m + digitLength n ≤ digitLength (m * n) + 1 := by
  have one_m := one_le_digitLength m
  have one_n := one_le_digitLength n
  have reached : 10 ^ (digitLength m + digitLength n - 1 - 1) ≤ m * n :=
    calc 10 ^ (digitLength m + digitLength n - 1 - 1)
        = 10 ^ (digitLength m - 1) * 10 ^ (digitLength n - 1) := by
          rw [← pow_add]
          congr 1
          omega
      _ ≤ m * n := Nat.mul_le_mul (ten_pow_le hm) (ten_pow_le hn)
  exact Nat.sub_le_iff_le_add.mp (le_digitLength (by omega) reached)

theorem digitLength_pow_le (m : Nat) {k : Nat} (hk : 0 < k) :
    digitLength (m ^ k) ≤ digitLength m * k := by
  refine (digitLength_le_iff (Nat.mul_pos (one_le_digitLength m) hk)).mpr ?_
  calc m ^ k < (10 ^ digitLength m) ^ k :=
        Nat.pow_lt_pow_left (lt_ten_pow_digitLength m) hk.ne'
    _ = 10 ^ (digitLength m * k) := (pow_mul 10 _ _).symm

end Calculator
