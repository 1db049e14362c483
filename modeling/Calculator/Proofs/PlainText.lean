import Calculator.Proofs.Patterns
import Calculator.Proofs.Printed

/-!
# Numbers — plain text

The texts that are read as decimals form a regular language: an optional minus sign, digits, and
a point with digits behind it, where either of the two may be missing but not both.  Every other
text is refused as it stands, and what is written of a decimal is read as its normal form.

* `Pattern.mem_plain_iff`: the texts of the language are those that spell a number.
* `Decimal.ofText_text`: a decimal that is written is read as its normal form.
* `Decimal.ofText_exact`: **plain text is read and written exactly**.
-/

namespace Calculator

open scoped Computability

/-! ### The language of plain numbers -/

namespace Pattern

variable {cs : List Char}

/-- A minus sign or none. -/
def sign : Language Char := 1 + {['-']}

/-- A number in positional notation: a sign or none, and digits with a fraction, a fraction alone or
digits alone. -/
def plain : Language Char := sign * (dotted + digits)

theorem mem_sign : cs ∈ sign ↔ ∃ negative : Bool, cs = if negative then ['-'] else [] := by
  rw [sign, Language.mem_add, Bool.exists_bool]
  rfl

/-- A fraction or none is what is written of the digits behind the point. -/
theorem mem_point_iff : cs ∈ 1 + fraction ↔ ∃ ds, cs = point ds ∧ ∀ c ∈ ds, c.isDigit := by
  constructor
  · rintro (none | some)
    · exact ⟨[], none, nofun⟩
    · obtain ⟨ds, hd, rfl⟩ := mem_fraction.mp some
      obtain ⟨ne, all⟩ := mem_digits.mp hd
      obtain ⟨d, ds, rfl⟩ := List.exists_cons_of_ne_nil ne
      exact ⟨d :: ds, rfl, all⟩
  · rintro ⟨- | ⟨d, ds⟩, rfl, all⟩
    · exact .inl rfl
    · exact .inr (mem_fraction.mpr ⟨d :: ds, mem_digits.mpr ⟨List.cons_ne_nil d ds, all⟩, rfl⟩)

/-- Digits and a fraction, of which one may be missing. -/
theorem mem_unsigned_iff : cs ∈ dotted + digits ↔ ∃ whole ds, cs = whole ++ point ds ∧
    (∀ c ∈ whole ++ ds, c.isDigit) ∧ whole ++ ds ≠ [] := by
  constructor
  · rintro (dotted | digits)
    · obtain ⟨whole, hw, tail, ht, rfl⟩ := Language.mem_mul.mp dotted
      obtain ⟨ds, hd, rfl⟩ := mem_fraction.mp ht
      obtain ⟨ne, hd⟩ := mem_digits.mp hd
      obtain ⟨d, ds, rfl⟩ := List.exists_cons_of_ne_nil ne
      exact ⟨whole, d :: ds, rfl, List.forall_mem_append.mpr ⟨mem_oneOf_kstar.mp hw, hd⟩, by simp⟩
    · obtain ⟨ne, all⟩ := mem_digits.mp digits
      exact ⟨cs, [], (List.append_nil cs).symm, by rwa [List.append_nil], by rwa [List.append_nil]⟩
  · rintro ⟨whole, ds, rfl, all, ne⟩
    obtain ⟨hw, hd⟩ := List.forall_mem_append.mp all
    rcases ds with - | ⟨d, ds⟩
    · refine .inr (mem_digits.mpr ?_)
      rw [List.append_nil] at ne
      rw [point, List.isEmpty_nil, if_pos rfl, List.append_nil]
      exact ⟨ne, hw⟩
    · exact .inl (Language.append_mem_mul (mem_oneOf_kstar.mpr hw)
        (mem_fraction.mpr ⟨d :: ds, mem_digits.mpr ⟨List.cons_ne_nil d ds, hd⟩, rfl⟩))

/-- The texts of the language are those that spell a number. -/
theorem mem_plain_iff {text : String} :
    text.toList ∈ plain ↔ ∃ negative whole fraction, Spells text negative whole fraction := by
  rw [plain, Language.mem_mul]
  constructor
  · rintro ⟨_, hs, _, hu, e⟩
    obtain ⟨negative, rfl⟩ := mem_sign.mp hs
    obtain ⟨whole, ds, rfl, all, ne⟩ := mem_unsigned_iff.mp hu
    refine ⟨negative, whole, ds, ⟨?_, all, ne⟩⟩
    rw [← String.toList_inj, toList_assemble, ← e]
  · rintro ⟨negative, whole, ds, rfl, all, ne⟩
    exact ⟨_, mem_sign.mpr ⟨negative, rfl⟩, _, mem_unsigned_iff.mpr ⟨whole, ds, rfl, all, ne⟩,
      (toList_assemble negative whole ds).symm⟩

end Pattern

namespace Decimal

/-! ### Reading -/

variable {text : String} {negative : Bool} {whole fraction : List Char}

theorem length_le_maxScale_iff : fraction.length ≤ maxScale ↔ fraction.length < 2 ^ 32 := by
  rw [maxScale]
  omega

/-- A text that spells a number that can be counted is read as that number. -/
theorem exists_of_spells (h : Spells text negative whole fraction)
    (short : fraction.length < 2 ^ 32) : ∃ d, ofText text = .ok d ∧ d.scale = fraction.length ∧
      d.significand = (if negative then -1 else 1) * valueOf (whole ++ fraction) :=
  ⟨⟨_, _, length_le_maxScale_iff.mpr short⟩, ofText_eq_ok_iff.mpr ⟨_, _, _, h, rfl, rfl⟩, rfl, rfl⟩

/-- Any other text is refused, and the refusal carries the text. -/
theorem ofText_refuses_iff : ofText text = .error ⟨text⟩ ↔
    ¬ ∃ negative whole fraction, Spells text negative whole fraction ∧
      fraction.length < 2 ^ 32 := by
  rw [ofText_eq_error_iff, and_iff_right rfl]
  simp only [not_exists, not_and, ← length_le_maxScale_iff, not_le]

/-! ### Writing -/

/-- The normal form has the sign of the decimal. -/
theorem isNegative_normalForm (d : Decimal) : d.normalForm.isNegative = d.isNegative := by
  rw [Bool.eq_iff_iff, isNegative_iff, isNegative_iff, value_normalForm]

/-- A significand is its sign and its amount. -/
theorem sign_mul_natAbs (d : Decimal) :
    (if d.isNegative then -1 else 1) * (d.significand.natAbs : Int) = d.significand := by
  rcases h : d.isNegative with - | -
  · rw [isNegative, decide_eq_false_iff_not] at h
    rw [if_neg Bool.false_ne_true]
    omega
  · rw [isNegative, decide_eq_true_iff] at h
    rw [if_pos rfl]
    omega

/-- The digits that are written of a decimal spell its normal form. -/
theorem places_significand (d : Decimal) :
    (if d.isNegative then -1 else 1) * (valueOf (d.places.1 ++ d.places.2) : Int)
      = d.normalForm.significand := by
  obtain ⟨-, -, -, value⟩ := d.places_spec
  rw [value, ← isNegative_normalForm, sign_mul_natAbs]

theorem spells_text (d : Decimal) : Spells d.text d.isNegative d.places.1 d.places.2 := by
  obtain ⟨ne, all, -, -⟩ := d.places_spec
  exact ⟨rfl, all, fun nil => ne (List.append_eq_nil_iff.mp nil).1⟩

/-- What is written of a decimal is read as its normal form. -/
theorem ofText_text (d : Decimal) : ofText d.text = .ok d.normalForm :=
  ofText_eq_ok_iff.mpr ⟨_, _, _, d.spells_text, d.places_spec.2.2.1.symm, d.places_significand.symm⟩

/-- **Plain text is read and written exactly.**  The texts of plain numbers are those that spell a
number with their sign, the digits in front of the point and those behind it.  They are read, with
as many fractional digits as are written and as the integer that all digits spell, as long as a
scale can count the fraction, and any other text is refused and named in the refusal.  What is
written of a decimal is read as its normal form. -/
theorem ofText_exact (text : String) :
    (text.toList ∈ Pattern.plain ↔
        ∃ negative whole fraction, Spells text negative whole fraction) ∧
      (∀ negative whole fraction, Spells text negative whole fraction →
        fraction.length < 2 ^ 32 → ∃ d, ofText text = .ok d ∧ d.scale = fraction.length ∧
          d.significand = (if negative then -1 else 1) * valueOf (whole ++ fraction)) ∧
      (ofText text = .error ⟨text⟩ ↔
        ¬ ∃ negative whole fraction, Spells text negative whole fraction ∧
          fraction.length < 2 ^ 32) ∧
      ∀ d : Decimal, ofText d.text = .ok d.normalForm :=
  ⟨Pattern.mem_plain_iff, fun _ _ _ => exists_of_spells, ofText_refuses_iff, ofText_text⟩

/-- Of `-007.50`, all zeros are read and those that count are written. -/
example : ofText "-007.50" = .ok ⟨-750, 2, by decide⟩ ∧
    (⟨-750, 2, by decide⟩ : Decimal).text = "-7.5" := by decide

end Decimal
end Calculator
