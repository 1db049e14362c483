import Calculator.Evaluation
import Calculator.Proofs.Numerals
import Calculator.Proofs.Quotient

/-!
# Evaluation — the exact value of an expression

`Expr.value?` gives an expression its value as a rational number.  Sums, differences, products and
powers are exact and quotients are rounded; no decimal and no scale takes part.  Evaluation computes
these values, as long as there is room for them: products and powers must not be too large, and
fractions must not be longer than a scale can count, those of literals included.

* `literal?_eq_some_iff`: a literal has the number that it spells.
* `Operator.apply_agrees`: each operation computes its value from values.
* `evaluate_refines_value`: **evaluation gives the value or, for want of space, a fault.**
* `evaluate_zeros_uncounted`: a literal can be a number and have no result.
-/

namespace Calculator

/-! ### Literals -/

/-- The number that digits in front of a point and behind it stand for. -/
def spelled (negative : Bool) (whole fraction : List Char) : ℚ :=
  (if negative then -1 else 1) * valueOf (whole ++ fraction) / 10 ^ fraction.length

/-- The text cut at its sign and its point. -/
def cut (text : String) : Bool × List Char × List Char :=
  let negative := text.toList.head? = some '-'
  let unsigned := text.toList.drop (if negative then 1 else 0)
  (negative, unsigned.takeWhile (· ≠ '.'), (unsigned.dropWhile (· ≠ '.')).drop 1)

instance (text : String) (negative : Bool) (whole fraction : List Char) :
    Decidable (Spells text negative whole fraction) :=
  decidable_of_iff (text = Decimal.assemble negative whole fraction
      ∧ (whole ++ fraction).all Char.isDigit ∧ whole ++ fraction ≠ [])
    ⟨fun ⟨text_eq, digits, ne_nil⟩ => ⟨text_eq, List.all_eq_true.mp digits, ne_nil⟩,
      fun ⟨text_eq, digits, ne_nil⟩ => ⟨text_eq, List.all_eq_true.mpr digits, ne_nil⟩⟩

/-- The number that a text spells, unless it spells none. -/
def literal? (text : String) : Option ℚ :=
  let (negative, whole, fraction) := cut text
  if Spells text negative whole fraction then some (spelled negative whole fraction) else none

/-- The text spells a number with more digits behind its point than a scale can count. -/
def Uncounted (text : String) : Prop :=
  ∃ negative whole fraction, Spells text negative whole fraction ∧ maxScale < fraction.length

/-- There is one way to cut the text of a number. -/
theorem Spells.cut_eq {text : String} {negative : Bool} {whole fraction : List Char}
    (h : Spells text negative whole fraction) : cut text = (negative, whole, fraction) := by
  obtain ⟨rfl, digits, -⟩ := h
  obtain ⟨take, rest⟩ := Decimal.span_point digits
  have unsigned : (whole ++ point fraction).head? ≠ some '-' := fun head =>
    sign_notMem_of_digits digits (List.mem_of_head? head)
  rcases negative with - | -
  · simp only [cut, toList_assemble, Bool.false_eq_true, if_false, List.nil_append, unsigned,
      decide_false, List.drop_zero, take, rest, drop_point]
  · simp only [cut, toList_assemble, if_true, List.singleton_append, List.head?_cons, decide_true,
      List.drop_succ_cons, List.drop_zero, take, rest, drop_point]

theorem literal?_eq_some_iff {text : String} {q : ℚ} : literal? text = some q ↔
    ∃ negative whole fraction, Spells text negative whole fraction ∧
      q = spelled negative whole fraction := by
  constructor
  · intro h
    rcases hc : cut text with ⟨negative, whole, fraction⟩
    rw [literal?, hc] at h
    obtain ⟨spells, value⟩ := Option.ite_none_right_eq_some.mp h
    exact ⟨negative, whole, fraction, spells, (Option.some.inj value).symm⟩
  · rintro ⟨negative, whole, fraction, spells, rfl⟩
    rw [literal?, spells.cut_eq]
    exact if_pos spells

/-- Literals are read as the numbers that they spell. -/
theorem ofText_eq_ok_value {text : String} {d : Decimal} (h : Decimal.ofText text = .ok d) :
    literal? text = some d.value := by
  obtain ⟨negative, whole, fraction, spells, scale, significand⟩ := Decimal.ofText_eq_ok_iff.mp h
  refine literal?_eq_some_iff.mpr ⟨negative, whole, fraction, spells, ?_⟩
  rw [Decimal.value, spelled, scale, significand]
  rcases negative with - | - <;> simp

/-- A literal that is not read is no number, or one whose fraction cannot be counted. -/
theorem ofText_eq_error {text : String} {e : NotDecimal} (h : Decimal.ofText text = .error e) :
    Uncounted text ∨ literal? text = none := by
  refine or_iff_not_imp_right.mpr fun some => ?_
  obtain ⟨q, hq⟩ := Option.ne_none_iff_exists'.mp some
  obtain ⟨negative, whole, fraction, spells, -⟩ := literal?_eq_some_iff.mp hq
  have long := (Decimal.ofText_eq_error_iff.mp h).2
  exact ⟨negative, whole, fraction, spells, long negative whole fraction spells⟩

/-- A number whose fraction cannot be counted is refused as if it were none. -/
theorem Uncounted.evaluateLiteral_eq {text : String} (h : Uncounted text) (span : Span) :
    evaluateLiteral text span = .error ⟨.invalidLiteral text, span.column⟩ := by
  obtain ⟨negative, whole, fraction, spells, long⟩ := h
  have refused : Decimal.ofText text = .error ⟨text⟩ := by
    refine Decimal.ofText_eq_error_iff.mpr ⟨rfl, fun _ _ _ spells' => ?_⟩
    -- there is one way to spell the text
    cases spells.cut_eq.symm.trans spells'.cut_eq
    exact long
  rw [evaluateLiteral, refused]

/-! ### Values -/

/-- A power.  The exponent is an integer of limited size. -/
def power? (limits : Limits) (x y : ℚ) : Option ℚ :=
  if y.den = 1 ∧ y.num.natAbs ≤ limits.maxExponent.toNat then
    integerPower? limits.precision.toNat x y.num
  else none

/-- The value of an operation on two values. -/
def Operator.value? (limits : Limits) (op : Operator) (x y : ℚ) : Option ℚ :=
  match op with
  | .add => some (x + y)
  | .sub => some (x - y)
  | .mul => some (x * y)
  | .div => quotient? limits.precision.toNat x y
  | .pow => power? limits x y

/-- The value of an expression, if every literal and every operation in it has one. -/
def Expr.value? (limits : Limits) : Expr → Option ℚ
  | .num text _ => literal? text
  | .neg operand _ => (operand.value? limits).map (- ·)
  | .binary left op right _ =>
    (left.value? limits).bind fun x => (right.value? limits).bind fun y => op.value? limits x y

/-! ### Evaluation -/

/-- A result has too many digits, or too many behind its point. -/
def EvalError.Overflow (e : EvalError) : Prop :=
  (∃ digits max, e.cause = .resultTooLarge digits max) ∨ e.cause = .scaleOverflow

/-- A literal of the expression has a fraction that cannot be counted, and the fault is that of the
literal. -/
def Expr.Overlong (e : Expr) (fault : EvalError) : Prop :=
  ∃ text span, .num text span ∈ e.nodes ∧ Uncounted text ∧
    fault = ⟨.invalidLiteral text, span.column⟩

theorem Expr.Overlong.mono {e e' : Expr} {fault : EvalError} (h : e.Overlong fault)
    (sub : e.nodes ⊆ e'.nodes) : e'.Overlong fault := by
  obtain ⟨text, span, mem, long⟩ := h
  exact ⟨text, span, sub mem, long⟩

theorem EvalError.overflow_of_refused {limits : Limits} {digits : Nat} {span : Span} {e : EvalError}
    (h : limits.allow digits span = .error e) : e.Overflow := by
  unfold Limits.allow at h
  split at h <;> cases h
  exact .inl ⟨_, _, rfl⟩

theorem Agrees.weaken {ε : Type} {Overflow Overflow' : ε → Prop} {r : Except ε Decimal}
    {v : Option ℚ} (h : Agrees Overflow r v) (imp : ∀ e, Overflow e → Overflow' e) :
    Agrees Overflow' r v := by
  rcases r with e | d
  · exact h.imp_left (imp e)
  · exact h

/-- Errors may be told in other words. -/
theorem Agrees.mapError {ε ε' : Type} {Overflow : ε → Prop} {Overflow' : ε' → Prop} {f : ε → ε'}
    {r : Except ε Decimal} {v : Option ℚ} (h : Agrees Overflow r v)
    (imp : ∀ e, Overflow e → Overflow' (f e)) : Agrees Overflow' (r.mapError f) v := by
  rcases r with e | d
  · exact h.imp (imp e) id
  · exact h

/-- A power is refused only if it is too large, or if the exponent does not allow it. -/
theorem Decimal.raise_agrees (limits : Limits) (base exponent : Decimal) (exponentExpr : Expr)
    (span : Span) : Agrees EvalError.Overflow (base.raise limits exponent exponentExpr span)
      (power? limits base.value exponent.value) := by
  rw [raise, power?]
  rcases hn : exponent.toInteger? with - | n
  · -- an integer value would be read as that integer
    refine .inr (if_neg fun ⟨whole, _⟩ => ?_)
    have value : exponent.value = exponent.value.num := (Rat.coe_int_num_of_den_eq_one whole).symm
    rw [toInteger?_eq_some_iff.mpr value] at hn
    cases hn
  · have value := toInteger?_eq_some_iff.mp hn
    dsimp only
    rw [value, Rat.num_intCast]
    split
    · rename_i large
      exact .inr (if_neg fun ⟨_, small⟩ => absurd small (not_le.mpr large))
    · rename_i small
      rw [if_pos ⟨Rat.den_intCast n, not_lt.mp small⟩]
      split
      · rename_i refused
        exact .inl (EvalError.overflow_of_refused refused)
      · have pow := pow_agrees base n limits.precision.toNat
        split
        · rename_i d hd
          rwa [hd] at pow
        · rename_i hd
          rw [hd] at pow
          exact .inr (pow.resolve_left (by rintro ⟨⟩))
        · exact .inl (.inr rfl)

/-- Operations compute their values from the values of their operands. -/
theorem Operator.apply_agrees (limits : Limits) (op : Operator) (a b : Decimal) (rightExpr : Expr)
    (span : Span) : Agrees EvalError.Overflow (op.apply limits a b rightExpr span)
      (op.value? limits a.value b.value) := by
  have located (e : ArithmeticError) (h : e = .scaleOverflow) :
      (e.located rightExpr span).Overflow := h ▸ .inr rfl
  cases op with
  | add => exact congrArg some (a.value_add b).symm
  | sub => exact congrArg some (a.value_sub b).symm
  | mul =>
      rw [apply]
      split
      · rename_i refused
        exact .inl (EvalError.overflow_of_refused refused)
      · exact (a.mul_agrees b).mapError located
  | div => exact (a.div_agrees b _).mapError located
  | pow => exact a.raise_agrees limits b rightExpr span

/-- Expressions have the values that their operations compute, unless a result is too large or a
literal too long. -/
theorem Expr.evaluate_agrees (limits : Limits) (e : Expr) :
    Agrees (fun fault => fault.Overflow ∨ e.Overlong fault) (e.evaluate limits)
      (e.value? limits) := by
  induction e with
  | num text span =>
      rw [evaluate, evaluateLiteral, value?]
      rcases h : Decimal.ofText text with err | d
      · refine (ofText_eq_error h).imp_left fun long => .inr ?_
        exact ⟨text, span, List.mem_singleton_self _, long, rfl⟩
      · exact ofText_eq_ok_value h
  | neg operand span ih =>
      have sub := nodes_subset_neg operand span
      rw [evaluate, value?]
      rcases h : operand.evaluate limits with err | d <;> rw [h] at ih
      · exact ih.imp (.imp_right (.mono · sub)) fun none => by rw [none]; rfl
      · rw [show operand.value? limits = some d.value from ih]
        exact congrArg some d.value_neg.symm
  | binary left op right span ihl ihr =>
      have subl := nodes_subset_left left op right span
      have subr := nodes_subset_right left op right span
      rw [evaluate, value?]
      rcases hl : left.evaluate limits with err | a <;> rw [hl] at ihl
      · exact ihl.imp (.imp_right (.mono · subl)) fun none => by rw [none]; rfl
      · rw [show left.value? limits = some a.value from ihl, Option.bind_some]
        rcases hr : right.evaluate limits with err | b <;> rw [hr] at ihr
        · exact ihr.imp (.imp_right (.mono · subr)) fun none => by rw [none]; rfl
        · rw [show right.value? limits = some b.value from ihr, Option.bind_some]
          exact (op.apply_agrees limits a b right span).weaken fun _ => .inl

/-- Operations see the values of their operands only, not their scales. -/
theorem Operator.apply_value_eq {limits : Limits} {op : Operator} {a a' b b' d d' : Decimal}
    {rightExpr rightExpr' : Expr} {span span' : Span} (ha : a.value = a'.value)
    (hb : b.value = b'.value) (h : op.apply limits a b rightExpr span = .ok d)
    (h' : op.apply limits a' b' rightExpr' span' = .ok d') : d.value = d'.value := by
  have value := op.apply_agrees limits a b rightExpr span
  have value' := op.apply_agrees limits a' b' rightExpr' span'
  rw [h, ha, hb] at value
  rw [h'] at value'
  exact Option.some.inj (value.symm.trans value')

/-- **Evaluation computes the exact value.**  A result is the value of the expression; where there
is a value, evaluation gives a result or fails for want of space; and where there is none, it fails.
A literal that is no number has no value.  Want of space is a result that would be too large, or a
literal with more digits behind its point than a scale can count: it has a value, but no result.  No
operation sees the scales of its operands. -/
theorem evaluate_refines_value (limits : Limits) (e : Expr) :
    (∀ d, e.evaluate limits = .ok d → e.value? limits = some d.value) ∧
      (∀ q, e.value? limits = some q → (∃ d, e.evaluate limits = .ok d ∧ d.value = q) ∨
        ∃ fault, e.evaluate limits = .error fault ∧
          ((∃ digits max, fault.cause = .resultTooLarge digits max) ∨
            fault.cause = .scaleOverflow ∨
              ∃ text span, .num text span ∈ e.nodes ∧ Uncounted text ∧
                fault = ⟨.invalidLiteral text, span.column⟩)) ∧
      (e.value? limits = none → ∃ fault, e.evaluate limits = .error fault) ∧
      (∀ (op : Operator) (a a' b b' d d' : Decimal) (right right' : Expr) (span span' : Span),
        a.value = a'.value → b.value = b'.value → op.apply limits a b right span = .ok d →
          op.apply limits a' b' right' span' = .ok d' → d.value = d'.value) := by
  have agrees := e.evaluate_agrees limits
  have scales : ∀ (op : Operator) (a a' b b' d d' : Decimal) (right right' : Expr)
      (span span' : Span), a.value = a'.value → b.value = b'.value →
        op.apply limits a b right span = .ok d →
          op.apply limits a' b' right' span' = .ok d' → d.value = d'.value :=
    fun _ _ _ _ _ _ _ _ _ _ _ => Operator.apply_value_eq
  rcases h : e.evaluate limits with fault | d <;> rw [h] at agrees
  · refine ⟨by rintro _ ⟨⟩, fun q value => .inr ⟨fault, rfl, ?_⟩, fun _ => ⟨fault, rfl⟩, scales⟩
    exact or_assoc.mp (agrees.resolve_right (by rw [value]; rintro ⟨⟩))
  · have value : e.value? limits = some d.value := agrees
    refine ⟨?_, fun q hq => .inl ⟨d, rfl, ?_⟩, fun none => ?_, scales⟩
    · rintro _ ⟨⟩
      exact value
    · rw [value] at hq
      exact Option.some.inj hq
    · rw [value] at none
      cases none

/-! ### A value without a result -/

/-- Zero, written with `n` zeros behind the point. -/
def zeros (n : Nat) : String := Decimal.assemble false ['0'] (List.replicate n '0')

theorem spells_zeros (n : Nat) : Spells (zeros n) false ['0'] (List.replicate n '0') where
  text_eq := rfl
  digits c mem := by
    rcases List.mem_append.mp mem with mem | mem
    · rw [List.mem_singleton.mp mem]
      rfl
    · rw [List.eq_of_mem_replicate mem]
      rfl
  ne_nil := List.cons_ne_nil _ _

theorem literal?_zeros (n : Nat) : literal? (zeros n) = some 0 := by
  refine literal?_eq_some_iff.mpr ⟨_, _, _, spells_zeros n, ?_⟩
  have value : valueOf (['0'] ++ List.replicate n '0') = 0 := by
    have zeros : (['0'] ++ List.replicate n '0').dropWhile (· = '0') = [] := by
      simp
    rw [← valueOf_dropWhile, zeros, valueOf_nil]
  rw [spelled, value, Nat.cast_zero, mul_zero, zero_div]

theorem uncounted_zeros {n : Nat} (long : maxScale < n) : Uncounted (zeros n) :=
  ⟨_, _, _, spells_zeros n, List.length_replicate ▸ long⟩

/-- Zero with `2 ^ 32` zeros behind its point has a value, but no result: it is refused, and neither
because a result is too large nor because a scale overflows. -/
theorem evaluate_zeros_uncounted :
    Spells (zeros 4294967296) false ['0'] (List.replicate 4294967296 '0') ∧
      (Expr.num (zeros 4294967296) ⟨0, 4294967298⟩).value? .standard = some 0 ∧
      (Expr.num (zeros 4294967296) ⟨0, 4294967298⟩).evaluate .standard
        = .error ⟨.invalidLiteral (zeros 4294967296), 1⟩ := by
  have long : maxScale < 4294967296 := by decide
  exact ⟨spells_zeros _, literal?_zeros _, (uncounted_zeros long).evaluateLiteral_eq _⟩

end Calculator
