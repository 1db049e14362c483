import Calculator.Proofs.Lines
import Calculator.Proofs.Printed
import Calculator.Proofs.Results

/-!
# Evaluation — larger limits

Under larger limits an evaluation goes the same way as before, step by step, until the smaller ones
stop it.  The precision matters to the operations that round, and to no others.

* `Relaxes`: a result under larger limits is the one under smaller ones, unless these refuse it.
* `Operator.apply_relaxes`, `Expr.evaluate_relaxes`: so it is for operations and for expressions.
* `answerLine_relaxed`: **larger limits never change a result**, nor a fault that no limit is to
  blame for; without quotients and negative exponents, neither does the precision.
-/

namespace Calculator

/-! ### Operations that are carried out -/

/-- An operation and the values of its operands. -/
structure Operation where
  op : Operator
  left : Decimal
  right : Decimal

/-- Whether an operation is a division, or a power with a negative exponent. -/
def Operation.divides (o : Operation) : Bool :=
  o.op = .div || o.op = .pow && o.right.isNegative

/-- The operations that an evaluation carries out, in order.  Nothing is carried out behind a
fault. -/
def Expr.operations (limits : Limits) : Expr → List Operation
  | .num _ _ => []
  | .neg operand _ => operand.operations limits
  | .binary left op right _ =>
    left.operations limits ++
      match left.evaluate limits, right.evaluate limits with
      | .ok a, .ok b => right.operations limits ++ [⟨op, a, b⟩]
      | .ok _, .error _ => right.operations limits
      | .error _, _ => []

/-! ### Results under larger limits -/

/-- The fault is one of size: a limit refuses what would have a value otherwise. -/
def EvalError.OfSize (e : EvalError) : Prop :=
  (∃ exponent max, e.cause = .exponentTooLarge exponent max) ∨
    ∃ digits max, e.cause = .resultTooLarge digits max

/-- The first result is the second, unless that one is a fault of size. -/
def Relaxes {α : Type} (r' r : Except EvalError α) : Prop :=
  r' = r ∨ ∃ e, r = .error e ∧ e.OfSize

theorem Relaxes.refl {α : Type} (r : Except EvalError α) : Relaxes r r := .inl rfl

theorem Relaxes.bind {α β : Type} {r r' : Except EvalError α} {f f' : α → Except EvalError β}
    (h : Relaxes r' r) (hf : ∀ a, r = .ok a → Relaxes (f' a) (f a)) :
    Relaxes (r' >>= f') (r >>= f) := by
  rcases h with rfl | ⟨e, rfl, size⟩
  · cases r' with
    | error e => exact .refl _
    | ok a => exact hf a rfl
  · exact .inr ⟨e, rfl, size⟩

/-- The second limits refuse no more than the first. -/
structure Limits.Relaxed (limits limits' : Limits) : Prop where
  maxExponent_le : limits.maxExponent ≤ limits'.maxExponent
  maxDigits_le : limits.maxDigits ≤ limits'.maxDigits

variable {limits limits' : Limits} (relaxed : limits.Relaxed limits')

/-- The power of an exponent that is not negative is exact. -/
theorem Decimal.pow_of_nonneg {n : Int} (h : 0 ≤ n) (a : Decimal) (precision precision' : Nat) :
    a.pow n precision' = a.pow n precision := by
  simp only [Decimal.pow, if_neg (Int.not_lt.mpr h)]

include relaxed

theorem allow_relaxes (n : Nat) (span : Span) :
    Relaxes (limits'.allow n span) (limits.allow n span) := by
  have le := UInt64.le_iff_toNat_le.mp relaxed.maxDigits_le
  unfold Limits.allow
  by_cases large : limits.maxDigits.toNat < n
  · rw [if_pos large]
    exact .inr ⟨_, rfl, .inr ⟨_, _, rfl⟩⟩
  · rw [if_neg large, if_neg (by omega)]
    exact .refl _

/-- An operation has the same result under larger limits, if it is exact or the precision is the
same. -/
theorem Operator.apply_relaxes (o : Operation) (right : Expr) (span : Span)
    (precise : o.divides → limits'.precision = limits.precision) :
    Relaxes (o.op.apply limits' o.left o.right right span)
      (o.op.apply limits o.left o.right right span) := by
  obtain ⟨op, a, b⟩ := o
  cases op with
  | add => exact .refl _
  | sub => exact .refl _
  | mul =>
      simp only [apply_mul]
      exact (allow_relaxes relaxed _ span).bind fun _ _ => .refl _
  | div =>
      left
      simp only [apply, precise rfl]
  | pow =>
      have le := UInt32.le_iff_toNat_le.mp relaxed.maxExponent_le
      simp only [apply]
      cases integer : b.toInteger? with
      | none =>
          left
          rw [Decimal.raise_of_none integer, Decimal.raise_of_none integer]
      | some n =>
          by_cases small : n.natAbs ≤ limits.maxExponent.toNat
          · rw [Decimal.raise_of_toInteger? integer small,
              Decimal.raise_of_toInteger? integer (small.trans le)]
            refine (allow_relaxes relaxed _ span).bind fun _ _ => .inl ?_
            -- only the reciprocal of a power is rounded
            by_cases negative : b.isNegative
            · rw [precise negative]
            · have nonneg : 0 ≤ n := by
                rw [Decimal.isNegative_iff, Decimal.toInteger?_eq_some_iff.mp integer] at negative
                exact_mod_cast not_lt.mp negative
              rw [a.pow_of_nonneg nonneg]
          · -- the smaller limit refuses the exponent
            exact .inr ⟨_, Decimal.raise_of_large integer (not_le.mp small), .inl ⟨_, _, rfl⟩⟩

/-- An expression has the same result under larger limits, if the operations that it carries out are
exact or the precision is the same. -/
theorem Expr.evaluate_relaxes (e : Expr)
    (precise : ∀ o ∈ e.operations limits, o.divides → limits'.precision = limits.precision) :
    Relaxes (e.evaluate limits') (e.evaluate limits) := by
  induction e with
  | num text span => exact .refl _
  | neg operand span ih => exact (ih precise).bind fun a _ => .refl (.ok (-a))
  | binary left op right span ihl ihr =>
      rw [operations] at precise
      rw [evaluate_binary, evaluate_binary]
      refine (ihl fun o mem => precise o (List.mem_append_left _ mem)).bind fun a hl => ?_
      rw [hl] at precise
      have ihr := ihr fun o mem => precise o (List.mem_append_right _ ?_)
      · refine ihr.bind fun b hr => ?_
        rw [hr] at precise
        exact Operator.apply_relaxes relaxed ⟨op, a, b⟩ right span (precise _ (by simp))
      · cases right.evaluate limits with
        | error e => exact mem
        | ok b => exact List.mem_append_left _ mem

/-! ### Answers under larger limits -/

/-- A line has the same answer under larger limits, unless a limit was to blame. -/
theorem answerLine_relaxes (text : String)
    (precise : ∀ t, parse (trimLineEnd text) = .ok t → ∀ o ∈ t.toExpr.operations limits,
      o.divides → limits'.precision = limits.precision) :
    answerLine limits' text = answerLine limits text ∨
      ∃ d e, answerLine limits text = .error d ∧ d.failure = .evaluation e ∧ e.OfSize := by
  rw [answerLine, answerLine]
  cases parsed : parse (trimLineEnd text) with
  | error e => exact .inl rfl
  | ok t =>
      dsimp only
      rcases t.toExpr.evaluate_relaxes relaxed (precise t parsed) with same | ⟨e, fault, size⟩
      · rw [same]
        exact .inl rfl
      · rw [fault]
        exact .inr ⟨_, e, rfl, rfl, size⟩

/-- **Larger limits never change a result.**  With the precision unchanged, a result stays, and so
does a diagnostic that is not one of size.  If nothing is divided on the way to a result, the
precision has no say in it, either. -/
theorem answerLine_relaxed (text : String) :
    (limits'.precision = limits.precision →
      (∀ r, answerLine limits text = .ok r → answerLine limits' text = .ok r) ∧
        ∀ d, answerLine limits text = .error d → (∀ e, d.failure = .evaluation e → ¬ e.OfSize) →
          answerLine limits' text = .error d) ∧
      ∀ r, answerLine limits text = .ok r →
        (∀ t, parse (trimLineEnd text) = .ok t → ∀ o ∈ t.toExpr.operations limits, ¬ o.divides) →
          answerLine limits' text = .ok r := by
  refine ⟨fun precise => ⟨fun r h => ?_, fun d h kept => ?_⟩, fun r h undivided => ?_⟩
  · rcases answerLine_relaxes relaxed text fun _ _ _ _ _ => precise with same | ⟨d, e, fault, -⟩
    · rw [same, h]
    · cases h.symm.trans fault
  · rcases answerLine_relaxes relaxed text fun _ _ _ _ _ => precise with
      same | ⟨d', e, fault, cause, size⟩
    · rw [same, h]
    · obtain rfl := Except.error.inj (h.symm.trans fault)
      exact absurd size (kept e cause)
  · rcases answerLine_relaxes relaxed text fun t parsed o mem divides =>
      absurd divides (undivided t parsed o mem) with same | ⟨d, e, fault, -⟩
    · rw [same, h]
    · cases h.symm.trans fault

omit relaxed

/-- Under small limits and under the standard ones: a quotient, and a divisor of zero; and with few
digits of precision and with many, a power. -/
theorem answerLine_relaxed_power :
    answerLine { maxExponent := 3, maxDigits := 50 } "2 ** 3 / 5" = .ok "1.6" ∧
      answerLine .standard "2 ** 3 / 5" = .ok "1.6" ∧
      answerLine .standard "1 / 0" = .error ⟨"1 / 0", .evaluation ⟨.divisionByZero "0", 5⟩⟩ ∧
      answerLine { precision := 5, maxExponent := 3 } "1 - 2 ** 3" = .ok "-7" ∧
      answerLine .standard "1 - 2 ** 3" = .ok "-7" := by
  have small : Limits.Relaxed { maxExponent := 3, maxDigits := 50 } .standard :=
    ⟨by decide, by decide⟩
  have coarse : Limits.Relaxed { precision := 5, maxExponent := 3 } .standard :=
    ⟨by decide, by decide⟩
  have quotient : answerLine { maxExponent := 3, maxDigits := 50 } "2 ** 3 / 5" = .ok "1.6" := by
    decide
  have zero : answerLine { maxExponent := 3, maxDigits := 50 } "1 / 0"
      = .error ⟨"1 / 0", .evaluation ⟨.divisionByZero "0", 5⟩⟩ := by decide
  have power : answerLine { precision := 5, maxExponent := 3 } "1 - 2 ** 3" = .ok "-7" := by
    decide
  have undivided : (match parse (trimLineEnd "1 - 2 ** 3") with
      | .ok t => (t.toExpr.operations { precision := 5, maxExponent := 3 }).all (! ·.divides)
      | .error _ => true) = true := by decide
  refine ⟨quotient, ((answerLine_relaxed small _).1 rfl).1 _ quotient,
    ((answerLine_relaxed small _).1 rfl).2 _ zero ?_, power,
    (answerLine_relaxed coarse _).2 _ power fun t parsed o mem => ?_⟩
  · rintro e ⟨⟩ (⟨_, _, ⟨⟩⟩ | ⟨_, _, ⟨⟩⟩)
  · rw [parsed] at undivided
    simpa using List.all_eq_true.mp undivided o mem

end Calculator
