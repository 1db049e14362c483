import Calculator.Digits

/-!
# Numbers — decimals

Exact decimal numbers.  A decimal is an integer, its significand, times a negative power of ten;
the exponent without its sign is the scale.  `1.50` and `1.5` are different decimals of the same
value: arithmetic keeps the scale that it arrives at, and comparison sees the value only.

* `ten_pow_trailingZeros_dvd`: the zeros at the end of the digits are factors of ten.
* `normalForm_mul`: the normal form of a decimal has the same value.
* `normalForm_scale_le`: and no larger scale.
-/

namespace Calculator

attribute [local instance] corePow

/-- The largest scale that a decimal may have. -/
def maxScale : Nat := 4294967295

/-- The number `significand / 10 ^ scale`. -/
structure Decimal where
  significand : Int
  scale : Nat
  scale_le : scale ≤ maxScale
deriving DecidableEq

/-- Why an operation has no result. -/
inductive ArithmeticError where
  /-- The divisor is zero. -/
  | divisionByZero
  /-- The result has more fractional digits than a scale can count. -/
  | scaleOverflow
deriving DecidableEq, Repr

/-- The error in words. -/
def ArithmeticError.message : ArithmeticError → String
  | .divisionByZero => "division by zero"
  | .scaleOverflow => "scale overflow"

namespace Decimal

/-- An integer as a decimal. -/
def ofInt (n : Int) : Decimal := ⟨n, 0, Nat.zero_le _⟩

/-- The number 0. -/
def zero : Decimal := ofInt 0

/-- The number 1. -/
def one : Decimal := ofInt 1

instance : Inhabited Decimal := ⟨zero⟩

/-- Whether the value is zero. -/
def isZero (d : Decimal) : Bool := d.significand = 0

/-- Whether the value is below zero. -/
def isNegative (d : Decimal) : Bool := d.significand < 0

/-- The number of digits in front of the point; it is not positive if the first digit that counts
comes later. -/
def magnitude (d : Decimal) : Int := digitLength d.significand.natAbs - d.scale

/-! ### Normal form -/

/-- The decimal of the same value without zeros at the end of its fraction. -/
def normalForm (d : Decimal) : Decimal :=
  if d.significand = 0 then zero
  else
    let zeros := min (trailingZeros d.significand.natAbs) d.scale
    ⟨d.significand / 10 ^ zeros, d.scale - zeros, Nat.le_trans (Nat.sub_le _ _) d.scale_le⟩

/-- The integer that the decimal stands for, if it has no fraction. -/
def toInteger? (d : Decimal) : Option Int :=
  if d.normalForm.scale = 0 then some d.normalForm.significand else none

/-! ### Sums, products and order -/

/-- The significand at a larger scale. -/
def atScale (d : Decimal) (scale : Nat) : Int := d.significand * 10 ^ (scale - d.scale)

/-- Two decimals combined at the larger of their scales. -/
def align (f : Int → Int → Int) (a b : Decimal) : Decimal :=
  let scale := max a.scale b.scale
  ⟨f (a.atScale scale) (b.atScale scale), scale, Nat.max_le.2 ⟨a.scale_le, b.scale_le⟩⟩

/-- The exact sum. -/
def add (a b : Decimal) : Decimal := align (· + ·) a b

/-- The exact difference. -/
def sub (a b : Decimal) : Decimal := align (· - ·) a b

/-- The negative, at the same scale. -/
def neg (d : Decimal) : Decimal := { d with significand := -d.significand }

/-- The exact product; the scales add up. -/
def mul (a b : Decimal) : Except ArithmeticError Decimal :=
  if h : a.scale + b.scale ≤ maxScale then .ok ⟨a.significand * b.significand, a.scale + b.scale, h⟩
  else .error .scaleOverflow

/-- The order of two values. -/
def compareValue (a b : Decimal) : Ordering :=
  let scale := max a.scale b.scale
  compare (a.atScale scale) (b.atScale scale)

instance : Add Decimal := ⟨add⟩
instance : Sub Decimal := ⟨sub⟩
instance : Neg Decimal := ⟨neg⟩

end Decimal

/-! ### Zeros at the end -/

/-- Digits that end in zeros spell a multiple of a power of ten. -/
theorem ten_pow_dvd_valueOf (cs : List Char) :
    10 ^ (cs.reverse.takeWhile (· = '0')).length ∣ valueOf cs := by
  generalize h : cs.reverse = rs
  obtain rfl : cs = rs.reverse := by rw [← h, List.reverse_reverse]
  clear h
  induction rs with
  | nil => simp
  | cons c rs ih =>
      by_cases hc : c = '0'
      · subst hc
        rw [List.reverse_cons, valueOf_append]
        simp only [decide_true, List.takeWhile_cons_of_pos, List.length_cons, List.length_nil,
          Nat.pow_succ, valueOf_cons, valueOf_nil]
        exact Nat.dvd_add (Nat.mul_dvd_mul (by simpa using ih) (by decide)) (by simp)
      · simp [hc]

/-- The zeros at the end of the digits of a number are factors of ten. -/
theorem ten_pow_trailingZeros_dvd (n : Nat) : 10 ^ trailingZeros n ∣ n := by
  have := ten_pow_dvd_valueOf (digits n)
  rwa [valueOf_digits] at this

namespace Decimal

theorem normalForm_scale_le (d : Decimal) : d.normalForm.scale ≤ d.scale := by
  unfold normalForm
  split
  · exact Nat.zero_le _
  · exact Nat.sub_le _ _

/-- The normal form has the same value. -/
theorem normalForm_mul (d : Decimal) :
    d.normalForm.significand * 10 ^ d.scale = d.significand * 10 ^ d.normalForm.scale := by
  unfold normalForm
  split
  · simp_all [zero, ofInt]
  · dsimp only
    generalize hz : min (trailingZeros d.significand.natAbs) d.scale = zeros
    have hle : zeros ≤ d.scale := by omega
    have dvd : (10 : Int) ^ zeros ∣ d.significand := by
      rw [← Int.natAbs_dvd_natAbs, Int.natAbs_pow]
      exact Nat.dvd_trans (Nat.pow_dvd_pow 10 (by omega)) (ten_pow_trailingZeros_dvd _)
    have : (10 : Int) ^ d.scale = 10 ^ zeros * 10 ^ (d.scale - zeros) := by
      rw [← Int.pow_add]; congr 1; omega
    rw [this, ← Int.mul_assoc, Int.ediv_mul_cancel dvd]

end Decimal
end Calculator
