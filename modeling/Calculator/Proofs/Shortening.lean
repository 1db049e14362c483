import Calculator.Proofs.Estimates
import Calculator.Proofs.Representation
import Calculator.Proofs.Results

/-!
# Evaluation — the same values with fewer digits

A decimal shortens another if it has the same value and no larger scale.  If operands are shortened,
the result is shortened too, or it is lost to an overflow of its scale: a quotient keeps the scale
that the values of its operands ask for, but may need a larger power of ten to get there.

* `Operator.apply_follows`: one operation on shortened operands.
* `Expr.binary_follows`, `Expr.neg_follows`: and so for expressions.
-/

namespace Calculator

namespace Decimal

/-! ### Shorter decimals -/

/-- The first decimal has the value of the second and no larger scale. -/
structure Shortens (a b : Decimal) : Prop where
  value_eq : a.value = b.value
  scale_le : a.scale ≤ b.scale

theorem Shortens.refl (d : Decimal) : d.Shortens d := ⟨rfl, Nat.le_refl _⟩

theorem shortens_normalForm (d : Decimal) : d.normalForm.Shortens d :=
  ⟨d.value_normalForm, d.normalForm_scale_le⟩

namespace Shortens

variable {a a' b b' d : Decimal}

theorem neg (h : a'.Shortens a) : (-a').Shortens (-a) := by
  refine ⟨?_, h.scale_le⟩
  rw [value_neg, value_neg, h.value_eq]

theorem add (ha : a'.Shortens a) (hb : b'.Shortens b) : (a' + b').Shortens (a + b) := by
  refine ⟨?_, max_le_max ha.scale_le hb.scale_le⟩
  rw [value_add, value_add, ha.value_eq, hb.value_eq]

theorem sub (ha : a'.Shortens a) (hb : b'.Shortens b) : (a' - b').Shortens (a - b) := by
  refine ⟨?_, max_le_max ha.scale_le hb.scale_le⟩
  rw [value_sub, value_sub, ha.value_eq, hb.value_eq]

theorem mul (ha : a'.Shortens a) (hb : b'.Shortens b) (h : a.mul b = .ok d) :
    ∃ d', a'.mul b' = .ok d' ∧ d'.Shortens d := by
  have value := value_mul h
  rw [Decimal.mul] at h
  split at h
  · rename_i short
    cases h
    have short' : a'.scale + b'.scale ≤ maxScale :=
      Nat.le_trans (Nat.add_le_add ha.scale_le hb.scale_le) short
    have ok : a'.mul b' = .ok ⟨a'.significand * b'.significand, a'.scale + b'.scale, short'⟩ :=
      dif_pos short'
    refine ⟨_, ok, ?_, Nat.add_le_add ha.scale_le hb.scale_le⟩
    rw [value_mul ok, value, ha.value_eq, hb.value_eq]
  · cases h

/-- The quotient of shortened operands is the same, unless its scale overflows. -/
theorem div {precision : Nat} (ha : a'.Shortens a) (hb : b'.Shortens b)
    (h : a.div b precision = .ok d) :
    a'.div b' precision = .error .scaleOverflow
      ∨ ∃ d', a'.div b' precision = .ok d' ∧ d'.Shortens d := by
  by_cases overflow : a'.div b' precision = .error .scaleOverflow
  · exact .inl overflow
  · have same := div_eq_of_value ha.value_eq hb.value_eq overflow (h ▸ nofun)
    exact .inr ⟨d, same.trans h, .refl d⟩

/-- Fewer digits count in an estimate. -/
theorem digitEstimate_le (h : a'.Shortens a) :
    digitEstimate a'.significand.natAbs ≤ digitEstimate a.significand.natAbs := by
  refine digitEstimate_mono ?_
  rw [significand_eq h.value_eq h.scale_le, Int.natAbs_mul, Int.natAbs_pow]
  exact Nat.le_mul_of_pos_right _ (by positivity)

end Shortens

end Decimal

/-! ### Operations -/

/-- Where the second evaluation has a result, the first has it shortened, or its scale overflows. -/
def Follows : Except EvalError Decimal → Except EvalError Decimal → Prop
  | .ok d', .ok d => d'.Shortens d
  | .error e, .ok _ => e.cause = .scaleOverflow
  | _, .error _ => True

theorem Follows.refl (r : Except EvalError Decimal) : Follows r r := by
  cases r with
  | error e => trivial
  | ok d => exact Decimal.Shortens.refl d

theorem follows_error (r : Except EvalError Decimal) (e : EvalError) : Follows r (.error e) := by
  cases r <;> trivial

/-- **One operation on shortened operands.**  Its result is shortened, or its scale overflows. -/
theorem Operator.apply_follows {limits : Limits} (op : Operator) {a a' b b' : Decimal} {e e' : Expr}
    {span span' : Span} (ha : a'.Shortens a) (hb : b'.Shortens b) :
    Follows (op.apply limits a' b' e' span') (op.apply limits a b e span) := by
  rcases h : op.apply limits a b e span with err | d
  · exact follows_error _ err
  cases op with
  | add =>
      cases h
      exact ha.add hb
  | sub =>
      cases h
      exact ha.sub hb
  | mul =>
      obtain ⟨small, ok⟩ := apply_mul_eq_ok_iff.mp h
      have le : productEstimate a' b' ≤ productEstimate a b :=
        Nat.add_le_add ha.digitEstimate_le hb.digitEstimate_le
      obtain ⟨d', ok', shortens⟩ := ha.mul hb ok
      rw [apply_mul_eq_ok_iff.mpr ⟨Nat.le_trans le small, ok'⟩]
      exact shortens
  | div =>
      rcases ha.div hb (apply_div_eq_ok_iff.mp h) with overflow | ⟨d', ok', shortens⟩
      · rw [apply, overflow]
        rfl
      · rw [apply_div_eq_ok_iff.mpr ok']
        exact shortens
  | pow =>
      obtain ⟨n, integer, limited, small, ok⟩ := apply_pow_eq_ok_iff.mp h
      have le : powerEstimate a' n ≤ powerEstimate a n :=
        min_le_min_right _ (Nat.mul_le_mul_right _ ha.digitEstimate_le)
      have integer' := (Decimal.toInteger?_eq_of_value hb.value_eq).trans integer
      have ok' := (Decimal.pow_eq_of_value ha.value_eq n _).trans ok
      rw [apply_pow_eq_ok_iff.mpr ⟨n, integer', limited, Nat.le_trans le small, ok'⟩]
      exact Decimal.Shortens.refl d

/-! ### Expressions -/

variable {limits : Limits}

/-- One evaluation after another. -/
theorem Follows.bind {r' r : Except EvalError Decimal} {f' f : Decimal → Except EvalError Decimal}
    (h : Follows r' r) (next : ∀ d' d, d'.Shortens d → Follows (f' d') (f d)) :
    Follows (r' >>= f') (r >>= f) := by
  cases r with
  | error e => exact follows_error _ e
  | ok d =>
      cases r' with
      | ok d' => exact next d' d h
      | error e' =>
          -- the fault comes before whatever the other evaluation does next
          show Follows (.error e') (f d)
          cases f d with
          | error e => trivial
          | ok _ => exact h

theorem Expr.neg_follows {operand operand' : Expr} (span span' : Span)
    (h : Follows (operand'.evaluate limits) (operand.evaluate limits)) :
    Follows ((neg operand' span').evaluate limits) ((neg operand span).evaluate limits) :=
  h.bind fun _ _ shortens => shortens.neg

theorem Expr.binary_follows {left left' right right' : Expr} (op : Operator) (span span' : Span)
    (hl : Follows (left'.evaluate limits) (left.evaluate limits))
    (hr : Follows (right'.evaluate limits) (right.evaluate limits)) :
    Follows ((binary left' op right' span').evaluate limits)
      ((binary left op right span).evaluate limits) := by
  rw [evaluate_binary, evaluate_binary]
  exact hl.bind fun _ _ ha => hr.bind fun _ _ hb => op.apply_follows ha hb

end Calculator
