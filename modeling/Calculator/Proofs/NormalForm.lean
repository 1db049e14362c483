import Calculator.Decimal.Value

/-!
# Numbers — the normal form

The normal form of a decimal is the one decimal of its value that has no fraction, or whose
significand does not end in a zero.

* `not_ten_dvd`: without the zeros at its end, a number is not a multiple of ten.
* `Decimal.normalForm_eq_iff`: decimals of one value, and only those, have one normal form.
* `Decimal.toInteger?_eq_some_iff`: a decimal is the integer that it is read as.
* `Decimal.normalForm_unique`: **the normal form is the one canonical decimal of its value**.
-/

namespace Calculator

/-! ### The zeros at the end of a number -/

theorem valueOf_concat (cs : List Char) (c : Char) :
    valueOf (cs ++ [c]) = valueOf cs * 10 + (c.toNat - 48) := by
  simp [valueOf_append, valueOf_cons]

/-- The digits without the zeros at their end, here read backwards, spell the number but for a
power of ten. -/
theorem valueOf_reverse (rs : List Char) : valueOf rs.reverse
    = valueOf (rs.dropWhile (· = '0')).reverse * 10 ^ (rs.takeWhile (· = '0')).length := by
  induction rs with
  | nil => rfl
  | cons c rs ih =>
      by_cases hc : c = '0'
      · subst hc
        have zero : '0'.toNat - 48 = 0 := rfl
        rw [List.reverse_cons, valueOf_concat, ih, zero, List.dropWhile_cons_of_pos (by simp),
          List.takeWhile_cons_of_pos (by simp), List.length_cons, pow_succ, add_zero, mul_assoc]
      · rw [List.dropWhile_cons_of_neg (by simpa using hc),
          List.takeWhile_cons_of_neg (by simpa using hc), List.length_nil, pow_zero, mul_one]

/-- Without the zeros at its end, a number is not a multiple of ten. -/
theorem not_ten_dvd {n : Nat} (hn : n ≠ 0) : ¬ 10 ∣ n / 10 ^ trailingZeros n := by
  have value := valueOf_reverse (digits n).reverse
  rw [List.reverse_reverse, valueOf_digits, ← trailingZeros] at value
  have head := List.head?_dropWhile_not (fun c : Char => decide (c = '0')) (digits n).reverse
  rcases hd : (digits n).reverse.dropWhile (· = '0') with - | ⟨c, rest⟩
  · rw [hd, List.reverse_nil, valueOf_nil, zero_mul] at value
    exact absurd value hn
  · rw [hd] at head value
    have mem : c ∈ (digits n).reverse := (List.dropWhile_suffix _).subset (hd ▸ List.mem_cons_self)
    have digit := Char.isDigit_iff_toNat.mp (digits_isDigit n c (List.mem_reverse.mp mem))
    have ne : c.toNat ≠ 48 := fun h => by
      obtain rfl : c = '0' := Char.toNat_inj.mp h
      simp at head
    have quotient : n / 10 ^ trailingZeros n = valueOf (c :: rest).reverse :=
      Nat.div_eq_of_eq_mul_left (by positivity) value
    have lower : 48 ≤ c.toNat := digit.1
    have upper : c.toNat ≤ 57 := digit.2
    rw [quotient, List.reverse_cons, valueOf_concat]
    omega

namespace Decimal

/-- The decimal has no fraction, or its significand does not end in a zero. -/
def Canonical (d : Decimal) : Prop := d.scale = 0 ∨ ¬ (10 : Int) ∣ d.significand

theorem canonical_normalForm (d : Decimal) : d.normalForm.Canonical := by
  rw [normalForm]
  by_cases zero : d.significand = 0
  · rw [if_pos zero]
    exact .inl rfl
  · rw [if_neg zero]
    dsimp only [Canonical]
    rcases Nat.le_total d.scale (trailingZeros d.significand.natAbs) with short | long
    · exact .inl (by omega)
    · refine .inr fun dvd => not_ten_dvd (Int.natAbs_ne_zero.mpr zero) ?_
      rw [Nat.min_eq_left long] at dvd
      have whole : (10 : Int) ^ trailingZeros d.significand.natAbs ∣ d.significand := by
        rw [← Int.natAbs_dvd_natAbs, Int.natAbs_pow]
        exact ten_pow_trailingZeros_dvd _
      rw [← Int.natAbs_dvd_natAbs, Int.natAbs_ediv_of_dvd whole, Int.natAbs_pow] at dvd
      exact dvd

/-- Two decimals of one value at different scales: the significand at the larger one is a multiple
of ten, as often as it is larger. -/
theorem significand_eq {a b : Decimal} (value : a.value = b.value) (le : a.scale ≤ b.scale) :
    b.significand = a.significand * 10 ^ (b.scale - a.scale) := by
  have h := a.atScale_eq le
  rw [value, ← b.atScale_eq (Nat.le_refl b.scale), atScale, atScale, Nat.sub_self, pow_zero,
    mul_one] at h
  exact_mod_cast h.symm

/-- A value has one significand at each scale. -/
theorem eq_of_value_of_scale {a b : Decimal} (value : a.value = b.value)
    (scale : a.scale = b.scale) : a = b := by
  have eq := significand_eq value (Nat.le_of_eq scale)
  obtain ⟨n, k, hk⟩ := a
  obtain ⟨m, l, hl⟩ := b
  obtain rfl : k = l := scale
  obtain rfl : m = n := by simpa using eq
  rfl

theorem eq_of_canonical {a b : Decimal} (ha : a.Canonical) (hb : b.Canonical)
    (value : a.value = b.value) : a = b := by
  -- at a larger scale, the significand would end in a zero
  have scale {a b : Decimal} (hb : b.Canonical) (value : a.value = b.value) :
      b.scale ≤ a.scale := by
    by_contra lt
    have eq := significand_eq value (Nat.le_of_not_le lt)
    refine hb.elim (fun zero => lt (zero ▸ Nat.zero_le _)) fun no => no ?_
    rw [eq]
    exact Dvd.dvd.mul_left (dvd_pow_self 10 (by omega)) _
  exact eq_of_value_of_scale value (Nat.le_antisymm (scale ha value.symm) (scale hb value))

/-- Decimals have one normal form if and only if they have one value. -/
theorem normalForm_eq_iff {a b : Decimal} : a.normalForm = b.normalForm ↔ a.value = b.value := by
  refine ⟨fun h => ?_, fun h => ?_⟩
  · rw [← a.value_normalForm, ← b.value_normalForm, h]
  · refine eq_of_canonical a.canonical_normalForm b.canonical_normalForm ?_
    rw [value_normalForm, value_normalForm, h]

/-- Zero is written without a fraction. -/
theorem normalForm_of_value_eq_zero {d : Decimal} (h : d.value = 0) : d.normalForm = zero :=
  if_pos ((value_eq_zero_iff d).mp h)

/-- A canonical decimal is its own normal form. -/
theorem normalForm_of_canonical {d : Decimal} (h : d.Canonical) : d.normalForm = d :=
  eq_of_canonical d.canonical_normalForm h d.value_normalForm

/-- A decimal is read as an integer if and only if its value is that integer. -/
theorem toInteger?_eq_some_iff {d : Decimal} {n : Int} : d.toInteger? = some n ↔ d.value = n := by
  have whole : (ofInt n).normalForm = ofInt n := normalForm_of_canonical (.inl rfl)
  rw [← value_ofInt, ← normalForm_eq_iff, whole, toInteger?]
  obtain ⟨m, scale, scale_le⟩ := d.normalForm
  by_cases h : scale = 0
  · subst h
    simp [ofInt]
  · simp [ofInt, h]

/-- A decimal that is not read as an integer has no integer as its value. -/
theorem toInteger?_eq_none_iff {d : Decimal} : d.toInteger? = none ↔ ∀ n : Int, d.value ≠ n := by
  rw [Option.eq_none_iff_forall_ne_some]
  exact forall_congr' fun n => not_congr toInteger?_eq_some_iff

theorem toInteger?_eq_of_value {a b : Decimal} (h : a.value = b.value) :
    a.toInteger? = b.toInteger? := by
  rw [toInteger?, toInteger?, normalForm_eq_iff.mpr h]

/-- **The normal form is the one canonical decimal of its value.**  It has the value of the decimal
and no larger scale, and either no fraction or a significand that is not a multiple of ten; zero is
written without a fraction.  Decimals have one normal form if and only if they compare as equal, and
a canonical decimal of the same value is the normal form.  A decimal is read as an integer if and
only if that integer is its value. -/
theorem normalForm_unique (d : Decimal) :
    d.normalForm.value = d.value ∧ d.normalForm.scale ≤ d.scale ∧
      (d.normalForm.scale = 0 ∨ ¬ (10 : Int) ∣ d.normalForm.significand) ∧
      (d.value = 0 → d.normalForm.significand = 0 ∧ d.normalForm.scale = 0) ∧
      (∀ e : Decimal, d.normalForm = e.normalForm ↔ d.compareValue e = .eq) ∧
      (∀ e : Decimal, e.Canonical → e.value = d.value → e = d.normalForm) ∧
      ∀ n : Int, d.toInteger? = some n ↔ d.value = n := by
  have canonical := d.canonical_normalForm
  have value := d.value_normalForm
  refine ⟨value, d.normalForm_scale_le, canonical, fun zero_value => ?_, fun e => ?_,
    fun e he same => ?_, fun n => toInteger?_eq_some_iff⟩
  · rw [normalForm_of_value_eq_zero zero_value]
    exact ⟨rfl, rfl⟩
  · exact normalForm_eq_iff.trans compareValue_eq_eq_iff.symm
  · exact eq_of_canonical he canonical (same.trans value.symm)

/-- Zeros are taken from the end of a fraction only. -/
example : (⟨-7000, 2, by decide⟩ : Decimal).normalForm = ⟨-70, 0, by decide⟩ := by decide

end Decimal
end Calculator
