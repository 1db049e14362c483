import Calculator.Decimal.Division
import Calculator.Decimal.Text
import Calculator.EvalError
import Calculator.Expr
import Calculator.Limits

/-!
# Evaluation

Expressions are evaluated exactly, left operand first; the first fault ends the evaluation.
Products and powers are refused in advance if their digits, estimated from the operands, exceed
the limit.

* `Expr.evaluate_binary`: an operation evaluates its operands from left to right.
-/

namespace Calculator

/-- The largest estimate of digits that is counted; larger ones are cut down to it. -/
def maxEstimate : Nat := 18446744073709551615

/-- The number that a literal spells. -/
def evaluateLiteral (text : String) (span : Span) : Except EvalError Decimal :=
  match Decimal.ofText text with
  | .ok d => .ok d
  | .error _ => .error ⟨.invalidLiteral text, span.column⟩

/-- A result of more than the largest number of digits is refused. -/
def Limits.allow (limits : Limits) (digits : Nat) (span : Span) : Except EvalError Unit :=
  if limits.maxDigits.toNat < digits then
    .error ⟨.resultTooLarge digits limits.maxDigits.toNat, span.column⟩
  else .ok ()

/-- The most digits that a product may have, by the estimate. -/
def productEstimate (left right : Decimal) : Nat :=
  digitEstimate left.significand.natAbs + digitEstimate right.significand.natAbs

/-- The most digits that the power of a base with the exponent `n` may have, by the estimate. -/
def powerEstimate (base : Decimal) (n : Int) : Nat :=
  min (digitEstimate base.significand.natAbs * n.natAbs) maxEstimate

/-- The fault of an operation at `span`; a zero divisor is named as it is written. -/
def ArithmeticError.located (divisor : Expr) (span : Span) : ArithmeticError → EvalError
  | .divisionByZero => ⟨.divisionByZero divisor.text, divisor.column⟩
  | .scaleOverflow => ⟨.scaleOverflow, span.column⟩

/-- A power.  The exponent is an integer of limited size, and so is the estimate of the digits of
the power; a zero base with a negative exponent is named by its value. -/
def Decimal.raise (limits : Limits) (base exponent : Decimal) (exponentExpr : Expr) (span : Span) :
    Except EvalError Decimal :=
  match exponent.toInteger? with
  | none => .error ⟨.fractionalExponent exponent.text, exponentExpr.column⟩
  | some n =>
    if limits.maxExponent.toNat < n.natAbs then
      .error ⟨.exponentTooLarge exponent.text limits.maxExponent.toNat, exponentExpr.column⟩
    else
      match limits.allow (powerEstimate base n) span with
      | .error e => .error e
      | .ok () =>
        match base.pow n limits.precision.toNat with
        | .ok d => .ok d
        | .error .divisionByZero => .error ⟨.divisionByZero base.text, span.column⟩
        | .error .scaleOverflow => .error ⟨.scaleOverflow, span.column⟩

/-- The result of an operation on two values; `rightExpr` is where the right one comes from and
`span` where the operation stands. -/
def Operator.apply (limits : Limits) (op : Operator) (left right : Decimal) (rightExpr : Expr)
    (span : Span) : Except EvalError Decimal :=
  match op with
  | .add => .ok (left + right)
  | .sub => .ok (left - right)
  | .mul =>
    match limits.allow (productEstimate left right) span with
    | .error e => .error e
    | .ok () => (left.mul right).mapError (ArithmeticError.located rightExpr span)
  | .div =>
    (left.div right limits.precision.toNat).mapError (ArithmeticError.located rightExpr span)
  | .pow => left.raise limits right rightExpr span

/-- The value of an expression. -/
def Expr.evaluate (limits : Limits) : Expr → Except EvalError Decimal
  | .num text span => evaluateLiteral text span
  | .neg operand _ => (operand.evaluate limits).map (- ·)
  | .binary left op right span =>
    match left.evaluate limits with
    | .error e => .error e
    | .ok a =>
      match right.evaluate limits with
      | .error e => .error e
      | .ok b => op.apply limits a b right span

theorem Expr.evaluate_binary (limits : Limits) (left : Expr) (op : Operator) (right : Expr)
    (span : Span) :
    (Expr.binary left op right span).evaluate limits = (do
      let a ← left.evaluate limits
      let b ← right.evaluate limits
      op.apply limits a b right span) := by
  rw [evaluate]
  cases left.evaluate limits with
  | error e => rfl
  | ok a => cases right.evaluate limits <;> rfl

end Calculator
