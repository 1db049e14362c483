import Calculator.Proofs.Rounding

/-!
# Numbers — decimals of one value

A value has a decimal at every scale that is large enough for it.  Powers and quotients are the same
whichever of them the operands are: a power is taken of the normal form, and the scale of a quotient
is chosen from magnitudes, which are those of the values.  The one trace that a scale leaves is a
quotient that is not computed because the power of ten which it asks for is too large.

* `Decimal.pow_eq_of_value`, `Decimal.div_eq_of_value`: powers and quotients of equal values.
* `Decimal.results_eq_of_compareValue`: **arithmetic does not see how its operands are
  represented**.
-/

namespace Calculator

namespace Decimal

variable {a a' b b' : Decimal}

/-- A power is taken of the normal form, which decimals of one value share. -/
theorem pow_eq_of_value (h : a.value = a'.value) (n : Int) (precision : Nat) :
    a.pow n precision = a'.pow n precision := by
  simp only [pow, normalForm_eq_iff.mpr h]

/-- Two quotients of the same values are the same, scale and all, unless one of them is lost to an
overflow. -/
theorem div_eq_of_value (ha : a.value = a'.value) (hb : b.value = b'.value) {precision : Nat}
    (h : a.div b precision ≠ .error .scaleOverflow)
    (h' : a'.div b' precision ≠ .error .scaleOverflow) :
    a.div b precision = a'.div b' precision := by
  by_cases zero : b.value = 0
  · rw [div_eq_divisionByZero_iff.mpr zero, div_eq_divisionByZero_iff.mpr (hb ▸ zero)]
  -- a fault would be an overflow, so that both have results
  have result {a b : Decimal} (hb : b.value ≠ 0) (h : a.div b precision ≠ .error .scaleOverflow) :
      ∃ d, a.div b precision = .ok d := by
    rcases hd : a.div b precision with e | d
    · obtain rfl := eq_scaleOverflow_of_div hb hd
      exact absurd hd h
    · exact ⟨d, rfl⟩
  obtain ⟨d, hd⟩ := result zero h
  obtain ⟨d', hd'⟩ := result (hb ▸ zero) h'
  obtain ⟨value, scale⟩ := div_eq_ok hd
  obtain ⟨value', scale'⟩ := div_eq_ok hd'
  rw [ha, hb] at value scale
  have same : d = d' := eq_of_value_of_scale (Option.some.inj (value.symm.trans value'))
    (scale.trans scale'.symm)
  rw [hd, hd', same]

/-- **Arithmetic does not see how its operands are represented.**  Powers of decimals that compare
as equal are the same, with their scale or their fault, and so are quotients, unless one of them is
lost to an overflow of its scale.  Sums and differences compare as equal, and so do products, where
there are both. -/
theorem results_eq_of_compareValue (ha : a.compareValue a' = .eq) (hb : b.compareValue b' = .eq) :
    (∀ n precision, a.pow n precision = a'.pow n precision) ∧
      (∀ precision, a.div b precision ≠ .error .scaleOverflow →
        a'.div b' precision ≠ .error .scaleOverflow →
          a.div b precision = a'.div b' precision) ∧
      (a + b).compareValue (a' + b') = .eq ∧ (a - b).compareValue (a' - b') = .eq ∧
      ∀ c c', a.mul b = .ok c → a'.mul b' = .ok c' → c.compareValue c' = .eq := by
  rw [compareValue_eq_eq_iff] at ha hb
  simp only [compareValue_eq_eq_iff]
  refine ⟨pow_eq_of_value ha, fun precision => div_eq_of_value ha hb, ?_, ?_, ?_⟩
  · rw [value_add, value_add, ha, hb]
  · rw [value_sub, value_sub, ha, hb]
  · intro c c' product product'
    rw [value_mul product, value_mul product', ha, hb]

/-- Zeros behind the point, here of `-3.0` and `7.00`, make no difference. -/
theorem results_eq_of_compareValue_padded :
    (ofInt (-3)).compareValue ⟨-30, 1, by decide⟩ = .eq ∧
      (ofInt 7).compareValue ⟨700, 2, by decide⟩ = .eq ∧
      (ofInt (-3)).pow (-5) 4 = pow ⟨-30, 1, by decide⟩ (-5) 4 ∧
      (ofInt (-3)).div (ofInt 7) 4 = div ⟨-30, 1, by decide⟩ ⟨700, 2, by decide⟩ 4 := by
  have ha : (ofInt (-3)).compareValue ⟨-30, 1, by decide⟩ = .eq := rfl
  have hb : (ofInt 7).compareValue ⟨700, 2, by decide⟩ = .eq := rfl
  obtain ⟨power, quotient, -⟩ := results_eq_of_compareValue ha hb
  exact ⟨ha, hb, power (-5) 4, quotient 4 nofun nofun⟩

/-- A quotient can be lost for one dividend and not for another of the same value: that of `1` and
the smallest decimal asks for a power of ten that is too large, and that of `1.0` does not. -/
example : one.div ⟨1, maxScale, Nat.le_refl _⟩ 1 = .error .scaleOverflow ∧
    ∃ q, (⟨10, 1, by decide⟩ : Decimal).div ⟨1, maxScale, Nat.le_refl _⟩ 1 = .ok q := by
  refine ⟨by decide, ?_⟩
  rw [div, if_neg (by decide), if_neg (by decide)]
  exact ⟨_, dif_pos (by decide)⟩

end Decimal
end Calculator
