import Calculator.Proofs.SeparatedText

/-!
# Numbers — the text of a result

A result is written in one way only: in front of the point a single zero or digits that start with
none, with separators between every three of them, behind it digits that end in no zero, and no sign
on zero.

* `Decimal.separate_mem`, `Decimal.getLast?_places`: the digits on either side of the point are as
  short as they can be.
* `Decimal.ofGrouped_grouped`: what is written is read as the normal form.
* `Decimal.grouped_canonical`: **decimals of one value, and only those, are written alike**.
-/

namespace Calculator

open scoped Computability

/-! ### The language of results -/

namespace Pattern

variable {cs : List Char}

/-- A digit that is not zero. -/
def nonzero : Language Char := oneOf fun c => c.isDigit ∧ c ≠ '0'

/-- A zero, or up to three digits without a zero in front, and groups. -/
def wholePart : Language Char := {['0']} + nonzero * (1 + digit + digit ^ 2) * group∗

/-- A point and digits behind it without a zero at their end. -/
def shortFraction : Language Char := {['.']} * (digit∗ * nonzero)

/-- The texts that results may have: a sign or none, a whole part, and a fraction or none. -/
def formatted : Language Char := sign * wholePart * (1 + shortFraction)

theorem mem_groupsOfThree : ∀ cs : List Char, (∀ c ∈ cs, c.isDigit) → groupsOfThree cs ∈ group∗
  | [], _ | [_], _ | [_, _], _ => Language.nil_mem_kstar group
  | a :: b :: c :: rest, h => by
      have three : [',', a, b, c] ∈ group :=
        mem_group.mpr ⟨a, b, c, rfl, h a (by simp), h b (by simp), h c (by simp)⟩
      have groups := mem_groupsOfThree rest fun d hd => h d (by simp [hd])
      exact mem_groups (Language.append_mem_mul three groups)

/-- The digits behind the first one in front of the groups. -/
theorem mem_tail : cs ∈ 1 + digit + digit ^ 2 ↔ cs.length ≤ 2 ∧ ∀ c ∈ cs, c.isDigit := by
  have lengths := @mem_digit_pow cs 0 1 2
  rw [pow_zero, pow_one] at lengths
  exact lengths.trans (and_congr_left fun _ => by omega)

/-- Digits without a zero at their end are short, if there are any. -/
theorem mem_shortFraction (all : ∀ c ∈ cs, c.isDigit) (last : cs.getLast? ≠ some '0') :
    point cs ∈ 1 + shortFraction := by
  rcases cs.eq_nil_or_concat' with rfl | ⟨cs, c, rfl⟩
  · exact .inl rfl
  · obtain ⟨hd, hc⟩ := List.forall_mem_append.mp all
    have ne : c ≠ '0' := fun e => last (by rw [List.getLast?_concat, e])
    have digits : cs ++ [c] ∈ digit∗ * nonzero :=
      Language.append_mem_mul (mem_oneOf_kstar.mpr hd)
        ⟨c, rfl, hc c (List.mem_singleton_self c), ne⟩
    have dotted : point (cs ++ [c]) = '.' :: (cs ++ [c]) := by
      rw [point, if_neg (by simp)]
    rw [dotted]
    exact .inr (Language.append_mem_mul (a := ['.']) rfl digits)

end Pattern

namespace Decimal

variable {bytes : Nat} {cs : List Char}

/-! ### The ends of a whole part -/

/-- No separator is put in front of all digits. -/
theorem head?_separate : (separate bytes cs).head? = cs.head? := by
  rcases cs with - | ⟨c, cs⟩
  · rfl
  · simp [separate]

/-- No separator is put behind all digits. -/
theorem getLast?_separate : (separate bytes cs).getLast? = cs.getLast? := by
  rcases cs.eq_nil_or_concat' with rfl | ⟨cs, c, rfl⟩
  · rfl
  · rw [separate, List.zipIdx_append, List.flatMap_append, List.getLast?_append,
      List.getLast?_concat, List.zipIdx_singleton, List.flatMap_singleton]
    dsimp only
    split <;> rfl

/-- Digits have separators inside only. -/
theorem separatesInside_separate (h : ∀ c ∈ cs, c.isDigit) : SeparatesInside (separate bytes cs) := by
  rw [SeparatesInside, head?_separate, getLast?_separate]
  exact ⟨fun head => (ne_of_isDigit (h _ (List.mem_of_head? head))).2.1 rfl,
    fun last => (ne_of_isDigit (h _ (List.mem_of_getLast? last))).2.1 rfl⟩

/-! ### The digits of a result -/

/-- A zero in front of the point is the only digit there. -/
theorem eq_of_head?_places {d : Decimal} (h : d.places.1.head? = some '0') :
    d.places.1 = ['0'] := by
  rw [places] at h ⊢
  generalize d.normalForm.significand.natAbs = n at *
  generalize d.normalForm.scale = scale at *
  rw [List.splitAt_eq] at h ⊢
  rcases Nat.lt_or_ge scale (digits n).length with long | short
  · -- no zeros are put in front, so the number is zero
    have none : scale + 1 - (digits n).length = 0 := by omega
    rw [none, List.replicate_zero, List.nil_append] at h ⊢
    rw [List.head?_take, if_neg (by omega)] at h
    obtain rfl : n = 0 := by
      by_contra ne
      exact head_digits ne h
    obtain rfl : scale = 0 := Nat.lt_one_iff.mp long
    rfl
  · -- the zeros that are put in front reach up to the point
    have length : (List.replicate (scale + 1 - (digits n).length) '0' ++ digits n).length
        = scale + 1 := by
      rw [List.length_append, List.length_replicate]
      omega
    have some : scale + 1 - (digits n).length = scale - (digits n).length + 1 := by omega
    rw [length, Nat.add_sub_cancel_left, some]
    rfl

/-- No zero is at the end of the fraction. -/
theorem getLast?_places (d : Decimal) : d.places.2.getLast? ≠ some '0' := by
  intro last
  obtain ⟨-, -, length, value⟩ := d.places_spec
  obtain ⟨ds, fraction⟩ := List.getLast?_eq_some_iff.mp last
  rw [fraction, ← List.append_assoc, valueOf_concat] at value
  rw [fraction, List.length_append] at length
  rcases d.canonical_normalForm with zero | no
  · rw [zero] at length
    exact absurd length (Nat.succ_ne_zero _)
  · have zero : '0'.toNat - 48 = 0 := rfl
    rw [zero, Nat.add_zero] at value
    exact no (Int.natAbs_dvd_natAbs.mp ⟨_, value.symm.trans (Nat.mul_comm _ _)⟩)

/-- The digits in front of the point are a whole part once separators are put among them. -/
theorem separate_mem (d : Decimal) : separate d.places.1.length d.places.1 ∈ Pattern.wholePart := by
  have all := d.whole_isDigit
  by_cases zero : d.places.1.head? = some '0'
  · rw [eq_of_head?_places zero]
    exact .inl rfl
  · obtain ⟨lead, rest, e, one, three, groups⟩ := exists_lead d.places_spec.1
    obtain ⟨c, lead, rfl⟩ := List.exists_cons_of_length_pos one
    rw [e] at all zero ⊢
    rw [separate_append one three groups]
    obtain ⟨hl, hr⟩ := List.forall_mem_append.mp all
    obtain ⟨hc, hl⟩ := List.forall_mem_cons.mp hl
    have first : [c] ∈ Pattern.nonzero := ⟨c, rfl, hc, fun e => zero (by rw [e]; rfl)⟩
    have more : lead ∈ 1 + Pattern.digit + Pattern.digit ^ 2 :=
      Pattern.mem_tail.mpr ⟨Nat.le_of_succ_le_succ three, hl⟩
    exact .inr (Language.append_mem_mul (Language.append_mem_mul first more)
      (Pattern.mem_groupsOfThree rest hr))

theorem grouped_mem (d : Decimal) : d.grouped.toList ∈ Pattern.formatted := by
  have fraction := Pattern.mem_shortFraction d.fraction_isDigit d.getLast?_places
  rw [grouped, toList_signed]
  exact Language.append_mem_mul
    (Language.append_mem_mul (Pattern.mem_sign.mpr ⟨d.isNegative, rfl⟩) d.separate_mem) fraction

/-! ### Reading a result -/

/-- Without its separators, a result is the plain text of the decimal. -/
theorem withoutSeparators_grouped (d : Decimal) : withoutSeparators d.grouped = d.text := by
  have behind : ',' ∉ point d.places.2 := (Separated.of_digits d.spells_text).separator_notMem
  rw [← String.toList_inj, grouped, toList_withoutSeparators (toList_signed _ _ _) behind,
    filter_signed, filter_places, ← toList_signed, text]

/-- A result is a number with separators. -/
theorem separated_grouped (d : Decimal) : Separated d.grouped d.isNegative
    (separate d.places.1.length d.places.1) d.places.2 :=
  .of_spells (toList_signed _ _ _) (d.filter_places _) (d.withoutSeparators_grouped ▸ d.spells_text)

/-- A result is read as the normal form. -/
theorem ofGrouped_grouped (d : Decimal) : ofGrouped d.grouped = .ok d.normalForm := by
  have separated := d.separated_grouped
  have inside : SeparatesInside (separate d.places.1.length d.places.1) :=
    separatesInside_separate d.whole_isDigit
  have read : ofText (withoutSeparators d.grouped) = .ok d.normalForm := by
    rw [withoutSeparators_grouped, ofText_text]
  exact (ofGrouped_cut_iff separated.toList_eq separated.point_notMem (head_point _)).mpr
    ⟨separated.separator_notMem, separated.separatesInside_iff.mpr (.inl inside), read⟩

/-- Zero is written without a sign. -/
theorem grouped_ne_negated_zero (d : Decimal) : d.grouped ≠ "-0" := by
  intro written
  have read : ofGrouped d.grouped = .ok zero := by
    rw [written]
    decide
  have normal : d.normalForm = zero := Except.ok.inj (d.ofGrouped_grouped.symm.trans read)
  have value : d.value = zero.value := by rw [← value_normalForm, normal]
  rw [grouped_eq_of_value value] at written
  exact absurd written (by decide)

/-- Decimals are written alike if and only if they have one value. -/
theorem grouped_eq_iff {a b : Decimal} : a.grouped = b.grouped ↔ a.value = b.value := by
  refine ⟨fun written => normalForm_eq_iff.mp ?_, grouped_eq_of_value⟩
  have read := a.ofGrouped_grouped
  rw [written, ofGrouped_grouped] at read
  exact (Except.ok.inj read).symm

/-- **Results are written in one way.**  What is written of a decimal has no zero in front of its
whole part, unless this is a single zero, separators between every three digits there, no zero at the
end of its fraction, and no sign on zero.  It is read as the normal form, which equals the decimal
and is written alike.  Decimals are written alike if and only if they compare as equal. -/
theorem grouped_canonical (d : Decimal) :
    d.grouped.toList ∈ Pattern.formatted ∧ d.grouped ≠ "-0" ∧
      ofGrouped d.grouped = .ok d.normalForm ∧ d.normalForm.compareValue d = .eq ∧
      d.normalForm.grouped = d.grouped ∧
      ∀ e : Decimal, d.grouped = e.grouped ↔ d.compareValue e = .eq := by
  have value := d.value_normalForm
  exact ⟨d.grouped_mem, d.grouped_ne_negated_zero, d.ofGrouped_grouped,
    compareValue_eq_eq_iff.mpr value, grouped_eq_iff.mpr value,
    fun e => grouped_eq_iff.trans compareValue_eq_eq_iff.symm⟩

/-- A fraction needs a zero in front of its point, and its own zeros at the end are not written. -/
example : (⟨-50, 3, by decide⟩ : Decimal).grouped = "-0.05" ∧
    (⟨123456700, 2, by decide⟩ : Decimal).grouped = "1,234,567" := by decide

end Decimal
end Calculator
