import Calculator.Decimal

/-!
# Numbers — quotients and powers

A quotient is rounded to a scale that is chosen from the operands: as many fractional digits as
the precision asks, and one more for each zero that the quotient has behind its point before the
first digit that counts.  A half is rounded away from zero.
-/

namespace Calculator

attribute [local instance] corePow

/-- The integer next to the quotient of two integers; a half goes away from zero. -/
def rounded (numerator denominator : Int) : Int :=
  numerator.sign * denominator.sign *
    ((2 * numerator.natAbs + denominator.natAbs) / (2 * denominator.natAbs) : Nat)

namespace Decimal

/-- The scale of a quotient. -/
def quotientScale (a b : Decimal) (precision : Nat) : Nat :=
  precision + (b.magnitude - a.magnitude).toNat

/-- The power of ten by which the quotient of the significands has to grow to count units of
`scale`. -/
def quotientShift (a b : Decimal) (scale : Nat) : Int := scale + b.scale - a.scale

/-- The quotient, rounded to its scale.  It has no value if the divisor is zero, or if its scale
or the power of ten that brings it there is too large. -/
def div (a b : Decimal) (precision : Nat) : Except ArithmeticError Decimal :=
  if b.significand = 0 then .error .divisionByZero
  else if a.significand = 0 then .ok zero
  else
    let scale := quotientScale a b precision
    let shift := quotientShift a b scale
    if h : scale ≤ maxScale ∧ shift ≤ maxScale then
      .ok ⟨rounded (a.significand * 10 ^ shift.toNat) (b.significand * 10 ^ (-shift).toNat),
        scale, h.1⟩
    else .error .scaleOverflow

/-- An integer power.  Powers with a negative exponent are quotients of one; the zeroth power of
zero is one. -/
def pow (a : Decimal) (exponent : Int) (precision : Nat) : Except ArithmeticError Decimal :=
  let base := a.normalForm
  let n := exponent.natAbs
  if h : n ≤ maxScale ∧ base.scale * n ≤ maxScale then
    let power : Decimal := ⟨base.significand ^ n, base.scale * n, h.2⟩
    if exponent < 0 then div one power precision else .ok power
  else .error .scaleOverflow

end Decimal

end Calculator
