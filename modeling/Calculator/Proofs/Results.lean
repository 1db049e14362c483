import Calculator.Evaluation
import Calculator.Proofs.Precedence

/-!
# Evaluation — when there is a result

What a result of an operation or an expression comes from, case by case: from the results of the
operands, within the limits.  Where the parts of an expression stand has no say in it.

* `Operator.apply_mul`, `Decimal.raise_of_toInteger?`: products and powers are computed if they are
  admitted.
* `apply_mul_eq_ok_iff`, `apply_div_eq_ok_iff`, `apply_pow_eq_ok_iff`: results of operations.
* `Expr.evaluate_neg_eq_ok_iff`, `Expr.evaluate_binary_eq_ok_iff`: results of expressions.
* `Expr.evaluate_relaid`: where the parts of an expression stand is seen in the column of a fault
  only.
* `Expr.evaluate_cause`, `Expr.evaluate_moved`: so it is with the cause of a fault, and with a
  result.
-/

namespace Calculator

/-! ### Faults passed on -/

theorem mapError_eq_ok {ε ε' α : Type} {f : ε → ε'} {r : Except ε α} {a : α} :
    r.mapError f = .ok a ↔ r = .ok a := by
  cases r <;> simp [Except.mapError]

theorem mapError_eq_error {ε ε' α : Type} {f : ε → ε'} {r : Except ε α} {e : ε'} :
    r.mapError f = .error e ↔ ∃ e', r = .error e' ∧ f e' = e := by
  cases r <;> simp [Except.mapError]

theorem mapError_bind {ε ε' α β : Type} (g : ε → ε') (r : Except ε α) (f : α → Except ε β) :
    (r >>= f).mapError g = r.mapError g >>= fun a => (f a).mapError g := by
  cases r <;> rfl

theorem bind_eq_error {ε α β : Type} {r : Except ε α} {f : α → Except ε β} {e : ε} :
    (r >>= f) = .error e ↔ r = .error e ∨ ∃ a, r = .ok a ∧ f a = .error e := by
  cases r <;> simp [bind, Except.bind]

/-! ### Operations in steps -/

/-- A product is computed if its estimate is admitted. -/
theorem Operator.apply_mul (limits : Limits) (left right : Decimal) (rightExpr : Expr)
    (span : Span) : mul.apply limits left right rightExpr span = (do
      limits.allow (productEstimate left right) span
      (left.mul right).mapError (ArithmeticError.located rightExpr span)) := by
  rw [apply]
  rcases limits.allow (productEstimate left right) span with e | ⟨⟩ <;> rfl

/-- The fault of a power at `span`. -/
def ArithmeticError.ofPower (base : Decimal) (span : Span) : ArithmeticError → EvalError
  | .divisionByZero => ⟨.divisionByZero base.text, span.column⟩
  | .scaleOverflow => ⟨.scaleOverflow, span.column⟩

section

variable {limits : Limits} {base exponent : Decimal} {n : Int} {exponentExpr : Expr} {span : Span}

theorem Decimal.raise_of_none (fraction : exponent.toInteger? = none) :
    base.raise limits exponent exponentExpr span
      = .error ⟨.fractionalExponent exponent.text, exponentExpr.column⟩ := by
  rw [raise, fraction]

theorem Decimal.raise_of_large (integer : exponent.toInteger? = some n)
    (large : limits.maxExponent.toNat < n.natAbs) :
    base.raise limits exponent exponentExpr span
      = .error ⟨.exponentTooLarge exponent.text limits.maxExponent.toNat, exponentExpr.column⟩ := by
  rw [raise, integer]
  exact if_pos large

/-- A power whose exponent is an integer that is not too large is computed if its estimate is
admitted. -/
theorem Decimal.raise_of_toInteger? (integer : exponent.toInteger? = some n)
    (small : n.natAbs ≤ limits.maxExponent.toNat) :
    base.raise limits exponent exponentExpr span = (do
      limits.allow (powerEstimate base n) span
      (base.pow n limits.precision.toNat).mapError (ArithmeticError.ofPower base span)) := by
  rw [raise, integer]
  dsimp only
  rw [if_neg (Nat.not_lt.mpr small)]
  rcases limits.allow (powerEstimate base n) span with e | ⟨⟩
  · rfl
  · dsimp only
    rcases base.pow n limits.precision.toNat with (- | -) | d <;> rfl

end

/-! ### Operations -/

variable {limits : Limits} {a b d : Decimal} {e : Expr} {span : Span}

theorem allow_eq_ok_iff {n : Nat} :
    limits.allow n span = .ok () ↔ n ≤ limits.maxDigits.toNat := by
  unfold Limits.allow
  by_cases large : limits.maxDigits.toNat < n
  · simp [large]
  · simp [large, Nat.not_lt.mp large]

theorem allow_eq_error_iff {n : Nat} {fault : EvalError} :
    limits.allow n span = .error fault ↔ limits.maxDigits.toNat < n ∧
      fault = ⟨.resultTooLarge n limits.maxDigits.toNat, span.column⟩ := by
  unfold Limits.allow
  by_cases large : limits.maxDigits.toNat < n
  · simp [large, eq_comm]
  · simp [large]

theorem apply_mul_eq_ok_iff : Operator.mul.apply limits a b e span = .ok d ↔
    productEstimate a b ≤ limits.maxDigits.toNat ∧ a.mul b = .ok d := by
  rw [Operator.apply, ← @allow_eq_ok_iff limits span]
  rcases limits.allow (productEstimate a b) span with err | ⟨⟩
  · simp
  · simp [mapError_eq_ok]

theorem apply_div_eq_ok_iff : Operator.div.apply limits a b e span = .ok d ↔
    a.div b limits.precision.toNat = .ok d :=
  mapError_eq_ok

/-- A power has a result if its exponent is an integer that is not too large, and its estimate
neither, and the power itself can be written. -/
theorem apply_pow_eq_ok_iff : Operator.pow.apply limits a b e span = .ok d ↔
    ∃ n : Int, b.toInteger? = some n ∧ n.natAbs ≤ limits.maxExponent.toNat ∧
      powerEstimate a n ≤ limits.maxDigits.toNat ∧ a.pow n limits.precision.toNat = .ok d := by
  rw [Operator.apply, Decimal.raise]
  rcases b.toInteger? with - | n
  · simp
  · simp only [Option.some.injEq, exists_eq_left', ← @allow_eq_ok_iff limits span]
    by_cases large : limits.maxExponent.toNat < n.natAbs
    · simp [large, Nat.not_le.mpr large]
    · rcases limits.allow (powerEstimate a n) span with err | ⟨⟩
      · simp [large]
      · have small := Nat.not_lt.mp large
        rcases a.pow n limits.precision.toNat with (- | -) | d' <;> simp [large, small]

/-! ### Expressions -/

theorem Expr.evaluate_neg_eq_ok_iff {operand : Expr} :
    (neg operand span).evaluate limits = .ok d ↔
      ∃ a, operand.evaluate limits = .ok a ∧ d = -a := by
  rw [evaluate]
  cases operand.evaluate limits with
  | error e => simp [Except.map]
  | ok a => simp [Except.map, eq_comm]

/-- An operation has a result if its operands have, and it has one for their results. -/
theorem Expr.evaluate_binary_eq_ok_iff {left right : Expr} {op : Operator} :
    (binary left op right span).evaluate limits = .ok d ↔
      ∃ a b, left.evaluate limits = .ok a ∧ right.evaluate limits = .ok b ∧
        op.apply limits a b right span = .ok d := by
  rw [evaluate]
  cases left.evaluate limits with
  | error e => simp
  | ok a => cases right.evaluate limits <;> simp

/-! ### Results wherever an expression stands -/

/-- The span of the same text in another line: `f` tells where a byte is there. -/
def Span.relaid (f : Nat → Nat) (span : Span) : Span := ⟨f span.start, f span.stop⟩

/-- The column of the same text in another line. -/
def columnAt (f : Nat → Nat) (column : Nat) : Nat := f (column - 1) + 1

/-- The expression, as it is read from another line. -/
def Expr.relaid (f : Nat → Nat) : Expr → Expr
  | .num text span => .num text (span.relaid f)
  | .neg operand span => .neg (operand.relaid f) (span.relaid f)
  | .binary left op right span => .binary (left.relaid f) op (right.relaid f) (span.relaid f)

/-- The fault, as it is met in another line. -/
def EvalError.relaid (f : Nat → Nat) (e : EvalError) : EvalError := ⟨e.cause, columnAt f e.column⟩

section

variable (f : Nat → Nat)

theorem Expr.text_relaid (e : Expr) : (e.relaid f).text = e.text := by
  induction e with
  | num => rfl
  | neg operand span ih => rw [relaid, text, ih, text]
  | binary left op right span ihl ihr => rw [relaid, text, ihl, ihr, text]

theorem Expr.span_relaid (e : Expr) : (e.relaid f).span = e.span.relaid f := by
  cases e <;> rfl

theorem Expr.column_relaid (e : Expr) : (e.relaid f).column = columnAt f e.column :=
  congrArg Span.column (e.span_relaid f)

theorem allow_relaid (n : Nat) (span : Span) : limits.allow n (span.relaid f)
    = (limits.allow n span).mapError (EvalError.relaid f) := by
  unfold Limits.allow
  split <;> rfl

theorem located_relaid (e : Expr) (span : Span) (r : Except ArithmeticError Decimal) :
    r.mapError (ArithmeticError.located (e.relaid f) (span.relaid f))
      = (r.mapError (ArithmeticError.located e span)).mapError (EvalError.relaid f) := by
  rcases r with (- | -) | d
  · rw [Except.mapError, ArithmeticError.located, e.text_relaid, e.column_relaid]
    rfl
  · rfl
  · rfl

/-- Where an operation and its right operand stand is seen in the column of a fault only. -/
theorem Operator.apply_relaid (op : Operator) (a b : Decimal) (e : Expr) (span : Span) :
    op.apply limits a b (e.relaid f) (span.relaid f)
      = (op.apply limits a b e span).mapError (EvalError.relaid f) := by
  cases op with
  | add => rfl
  | sub => rfl
  | mul => simp only [apply_mul, mapError_bind, allow_relaid, located_relaid]
  | div => exact located_relaid f e span _
  | pow =>
      simp only [apply]
      cases integer : b.toInteger? with
      | none =>
          rw [Decimal.raise_of_none integer, Decimal.raise_of_none integer, e.column_relaid]
          rfl
      | some n =>
          by_cases small : n.natAbs ≤ limits.maxExponent.toNat
          · have ofPower (r : Except ArithmeticError Decimal) :
                r.mapError (ArithmeticError.ofPower a (span.relaid f))
                  = (r.mapError (ArithmeticError.ofPower a span)).mapError
                      (EvalError.relaid f) := by
              rcases r with (- | -) | d <;> rfl
            simp only [Decimal.raise_of_toInteger? integer small, mapError_bind, allow_relaid,
              ofPower]
          · have large := Nat.not_le.mp small
            rw [Decimal.raise_of_large integer large, Decimal.raise_of_large integer large,
              e.column_relaid]
            rfl

/-- **Where the parts of an expression stand is seen in the column of a fault only.** -/
theorem Expr.evaluate_relaid (e : Expr) :
    (e.relaid f).evaluate limits = (e.evaluate limits).mapError (EvalError.relaid f) := by
  induction e with
  | num text span =>
      rw [relaid, evaluate, evaluate, evaluateLiteral, evaluateLiteral]
      cases Decimal.ofText text <;> rfl
  | neg operand span ih =>
      rw [relaid, evaluate, evaluate, ih]
      cases operand.evaluate limits <;> rfl
  | binary left op right span ihl ihr =>
      simp only [relaid, evaluate_binary, mapError_bind, ihl, ihr, op.apply_relaid]

end

theorem Expr.unplaced_eq (e : Expr) : e.unplaced = e.relaid fun _ => 0 := by
  induction e with
  | num => rfl
  | neg operand span ih => rw [unplaced, ih, relaid]; rfl
  | binary left op right span ihl ihr => rw [unplaced, ihl, ihr, relaid]; rfl

/-- The causes of faults do not depend on where the parts of an expression stand. -/
theorem Expr.evaluate_cause {e' : Expr} (same : e.unplaced = e'.unplaced) :
    (e.evaluate limits).mapError EvalError.cause
      = (e'.evaluate limits).mapError EvalError.cause := by
  have unplaced (e : Expr) : (e.evaluate limits).mapError EvalError.cause
      = (e.unplaced.evaluate limits).mapError EvalError.cause := by
    rw [e.unplaced_eq, evaluate_relaid]
    cases e.evaluate limits <;> rfl
  rw [unplaced e, same, ← unplaced e']

/-- Results do not depend on where the parts of an expression stand. -/
theorem Expr.evaluate_moved {e' : Expr} (same : e.unplaced = e'.unplaced)
    (h : e.evaluate limits = .ok d) : e'.evaluate limits = .ok d := by
  rw [← mapError_eq_ok (f := EvalError.cause), ← evaluate_cause same, h]
  rfl

end Calculator
