import Calculator.Proofs.NormalForm

/-!
# Numbers — order and arithmetic

To be compared, two decimals are brought to a scale that is chosen for the pair.  Still they are
ordered as their values are, and sums, differences and products go along with the order.  The laws
of sums and products hold of the decimals themselves, scale and all, and not of their values only:
the scales of both sides add up alike, and both sides overflow together.

* `Decimal.le_iff`: decimals are in order if and only if their values are.
* `Decimal.AmountsTo`: a result is determined by its value and its scale, its overflow included.
* `Decimal.add_assoc`, `Decimal.mul_assoc`, `Decimal.mul_add`: the laws of arithmetic.
* `Decimal.compareValue_ordered`: **comparison is the order of the values, and arithmetic respects
  it**.
-/

namespace Calculator

namespace Decimal

variable {a b c p q : Decimal}

/-! ### Order -/

/-- Decimals are in the order in which they compare. -/
instance : LE Decimal := ⟨fun a b => (a.compareValue b).isLE⟩

instance : DecidableLE Decimal := fun a b =>
  inferInstanceAs (Decidable ((a.compareValue b).isLE = true))

/-- Decimals are in order if and only if their values are. -/
theorem le_iff : a ≤ b ↔ a.value ≤ b.value := by
  show (a.compareValue b).isLE = true ↔ _
  rw [compareValue_eq, Ordering.isLE_iff_ne_gt]
  exact compare_le_iff_le

/-- To compare as equal is an equivalence. -/
theorem equivalence_compareValue :
    Equivalence fun a b : Decimal => a.compareValue b = .eq where
  refl _ := compareValue_eq_eq_iff.mpr rfl
  symm h := compareValue_eq_eq_iff.mpr (compareValue_eq_eq_iff.mp h).symm
  trans h h' := compareValue_eq_eq_iff.mpr
    ((compareValue_eq_eq_iff.mp h).trans (compareValue_eq_eq_iff.mp h'))

/-- A product with a factor that is not negative keeps the order. -/
theorem product_le_product (positive : c.isNegative = false) (hp : a.mul c = .ok p)
    (hq : b.mul c = .ok q) (h : a ≤ b) : p ≤ q := by
  have nonneg : 0 ≤ c.value := by
    rw [isNegative, decide_eq_false_iff_not, Int.not_lt] at positive
    exact div_nonneg (Int.cast_nonneg positive) (by positivity)
  rw [le_iff, value_mul hp, value_mul hq]
  exact mul_le_mul_of_nonneg_right (le_iff.mp h) nonneg

/-! ### Results -/

/-- The result is the decimal of this value at this scale, or an overflow if no decimal may have the
scale. -/
structure AmountsTo (result : Except ArithmeticError Decimal) (x : ℚ) (scale : Nat) : Prop where
  ok : scale ≤ maxScale → ∃ d, result = .ok d ∧ d.value = x ∧ d.scale = scale
  overflow : maxScale < scale → result = .error .scaleOverflow

section
variable {r r' : Except ArithmeticError Decimal} {x y : ℚ} {m n : Nat}

/-- Value and scale leave no choice. -/
theorem AmountsTo.unique (h : AmountsTo r x m) (h' : AmountsTo r' y n) (value : x = y)
    (scale : m = n) : r = r' := by
  subst value scale
  rcases Nat.lt_or_ge maxScale m with large | fits
  · rw [h.overflow large, h'.overflow large]
  · obtain ⟨d, rfl, hd, scale⟩ := h.ok fits
    obtain ⟨d', rfl, hd', scale'⟩ := h'.ok fits
    exact congrArg Except.ok (eq_of_value_of_scale (hd.trans hd'.symm) (scale.trans scale'.symm))

theorem amountsTo_ok (d : Decimal) : AmountsTo (.ok d) d.value d.scale :=
  ⟨fun _ => ⟨d, rfl, rfl, rfl⟩, fun large => absurd d.scale_le (Nat.not_le.mpr large)⟩

theorem amountsTo_mul (a b : Decimal) :
    AmountsTo (a.mul b) (a.value * b.value) (a.scale + b.scale) where
  ok fits := ⟨_, dif_pos fits, value_mul (dif_pos fits), rfl⟩
  overflow large := dif_neg (Nat.not_le.mpr large)

/-- Two results put together: if one of them overflows so does the whole, whose scale is no
smaller. -/
theorem AmountsTo.bind (h : AmountsTo r x m) (h' : AmountsTo r' y n) {z : ℚ} {k : Nat}
    {f : Decimal → Decimal → Except ArithmeticError Decimal} (le : m ≤ k) (le' : n ≤ k)
    (hf : ∀ d d', d.value = x → d.scale = m → d'.value = y → d'.scale = n →
      AmountsTo (f d d') z k) :
    AmountsTo (r.bind fun d => r'.bind fun d' => f d d') z k := by
  rcases Nat.lt_or_ge maxScale m with large | fits
  · rw [h.overflow large]
    exact ⟨fun fits => absurd (le.trans fits) (Nat.not_le.mpr large), fun _ => rfl⟩
  rcases Nat.lt_or_ge maxScale n with large | fits'
  · obtain ⟨d, rfl, -, -⟩ := h.ok fits
    rw [h'.overflow large]
    exact ⟨fun fits => absurd (le'.trans fits) (Nat.not_le.mpr large), fun _ => rfl⟩
  obtain ⟨d, rfl, hd, scale⟩ := h.ok fits
  obtain ⟨d', rfl, hd', scale'⟩ := h'.ok fits'
  exact hf d d' hd scale hd' scale'

theorem AmountsTo.mul (h : AmountsTo r x m) (h' : AmountsTo r' y n) :
    AmountsTo (r.bind fun d => r'.bind fun d' => d.mul d') (x * y) (m + n) := by
  refine h.bind h' (Nat.le_add_right m n) (Nat.le_add_left n m) ?_
  rintro d d' rfl rfl rfl rfl
  exact amountsTo_mul d d'

theorem AmountsTo.add (h : AmountsTo r x m) (h' : AmountsTo r' y n) :
    AmountsTo (r.bind fun d => r'.bind fun d' => .ok (d + d')) (x + y) (max m n) := by
  refine h.bind h' (Nat.le_max_left m n) (Nat.le_max_right m n) ?_
  rintro d d' rfl rfl rfl rfl
  rw [← value_add]
  exact amountsTo_ok (d + d')

end

/-! ### Laws of arithmetic -/

protected theorem add_comm (a b : Decimal) : a + b = b + a := by
  refine eq_of_value_of_scale ?_ (Nat.max_comm _ _)
  rw [value_add, value_add, add_comm]

protected theorem add_assoc (a b c : Decimal) : a + b + c = a + (b + c) := by
  refine eq_of_value_of_scale ?_ (Nat.max_assoc _ _ _)
  simp only [value_add, add_assoc]

protected theorem mul_comm (a b : Decimal) : a.mul b = b.mul a :=
  (amountsTo_mul a b).unique (amountsTo_mul b a) (mul_comm _ _) (Nat.add_comm _ _)

protected theorem mul_assoc (a b c : Decimal) :
    (a.mul b).bind (fun p => p.mul c) = (b.mul c).bind fun p => a.mul p :=
  ((amountsTo_mul a b).mul (amountsTo_ok c)).unique ((amountsTo_ok a).mul (amountsTo_mul b c))
    (mul_assoc _ _ _) (Nat.add_assoc _ _ _)

protected theorem mul_add (a b c : Decimal) :
    a.mul (b + c) = (a.mul b).bind fun p => (a.mul c).bind fun q => .ok (p + q) := by
  refine (amountsTo_mul a (b + c)).unique ((amountsTo_mul a b).add (amountsTo_mul a c)) ?_ ?_
  · rw [value_add, mul_add]
  · exact (Nat.add_max_add_left a.scale b.scale c.scale).symm

/-- **Comparison is the order of the values, and arithmetic respects it.**  Decimals compare as the
rational numbers that they stand for, whatever their scales: to compare as equal is an equivalence,
and the order is total, transitive, and antisymmetric up to that equivalence.  Sums and differences
keep it, and so do products with a factor that is not negative, where there are both; negatives
reverse it.  Sums and products are commutative and associative, and products distribute over sums;
both sides are the same decimal, or both overflow. -/
theorem compareValue_ordered (a b c : Decimal) :
    a.compareValue b = compare a.value b.value ∧
      Equivalence (fun x y : Decimal => x.compareValue y = .eq) ∧
      a ≤ a ∧ (a ≤ b ∨ b ≤ a) ∧ (a ≤ b → b ≤ c → a ≤ c) ∧
      (a ≤ b ∧ b ≤ a ↔ a.compareValue b = .eq) ∧
      (a + c ≤ b + c ↔ a ≤ b) ∧ (a - c ≤ b - c ↔ a ≤ b) ∧ (-b ≤ -a ↔ a ≤ b) ∧
      (c.isNegative = false → ∀ p q, a.mul c = .ok p → b.mul c = .ok q → a ≤ b → p ≤ q) ∧
      a + b = b + a ∧ a + b + c = a + (b + c) ∧ a.mul b = b.mul a ∧
      (a.mul b).bind (fun p => p.mul c) = (b.mul c).bind (fun p => a.mul p) ∧
      a.mul (b + c) = (a.mul b).bind fun p => (a.mul c).bind fun q => .ok (p + q) := by
  refine ⟨compareValue_eq a b, equivalence_compareValue, le_iff.mpr le_rfl, ?_, ?_, ?_, ?_, ?_, ?_,
    fun positive p q => product_le_product positive, a.add_comm b, a.add_assoc b c, a.mul_comm b,
    a.mul_assoc b c, a.mul_add b c⟩
  · rw [le_iff, le_iff]
    exact le_total _ _
  · rw [le_iff, le_iff, le_iff]
    exact le_trans
  · rw [le_iff, le_iff, compareValue_eq_eq_iff]
    exact antisymm_iff
  · rw [le_iff, le_iff, value_add, value_add]
    exact add_le_add_iff_right _
  · rw [le_iff, le_iff, value_sub, value_sub]
    exact sub_le_sub_iff_right _
  · rw [le_iff, le_iff, value_neg, value_neg]
    exact neg_le_neg_iff

/-- The larger significand is not the larger decimal. -/
example : (⟨-150, 2, by decide⟩ : Decimal) ≤ ⟨-15, 1, by decide⟩ ∧
    (⟨150, 2, by decide⟩ : Decimal) ≤ ⟨15, 1, by decide⟩ ∧
    ¬ ofInt 2 ≤ ⟨150, 2, by decide⟩ := by decide

end Decimal
end Calculator
