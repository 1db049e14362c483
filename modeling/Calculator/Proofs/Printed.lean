import Calculator.Proofs.NormalForm
import Calculator.Proofs.Numerals
import Calculator.Tree.Expr

/-!
# Numbers — what is written is read back

A result is written as the digits of its normal form, with separators in its whole part.  This is
one numeral, after a minus sign if the result is negative, and without the separators it is read as
the normal form.

* `isNumeral_numeral`: the separators stand where a numeral may have them.
* `scans_grouped`: what is written is scanned as these tokens.
* `ofText_numeral`: and the numeral is read as the normal form without its sign.
* `grouped_eq_of_value`: what is written depends on the value only.
-/

namespace Calculator

/-! ### Separators -/

/-- Every three digits with a separator in front of them. -/
def groupsOfThree : List Char → List Char
  | a :: b :: c :: rest => ',' :: a :: b :: c :: groupsOfThree rest
  | _ => []

/-- Where as many digits are left as make up groups of three, each group gets a separator. -/
theorem flatMap_groups (bytes : Nat) : ∀ (cs : List Char) (start : Nat), 0 < start →
    bytes = start + cs.length → cs.length % 3 = 0 →
    (cs.zipIdx start).flatMap (fun (c, i) =>
      if 0 < i ∧ (bytes - i) % 3 = 0 then [',', c] else [c]) = groupsOfThree cs
  | [], _, _, _, _ => rfl
  | [_], _, _, _, h => absurd h (by simp)
  | [_, _], _, _, _, h => absurd h (by simp)
  | a :: b :: c :: rest, start, pos, total, h => by
      simp only [List.length_cons] at total h
      have groups := flatMap_groups bytes rest (start + 1 + 1 + 1) (by omega) (by omega) (by omega)
      have first : 0 < start ∧ (bytes - start) % 3 = 0 := ⟨pos, by omega⟩
      have second : ¬ (0 < start + 1 ∧ (bytes - (start + 1)) % 3 = 0) := by omega
      have third : ¬ (0 < start + 1 + 1 ∧ (bytes - (start + 1 + 1)) % 3 = 0) := by omega
      rw [List.zipIdx_cons, List.zipIdx_cons, List.zipIdx_cons, List.flatMap_cons,
        List.flatMap_cons, List.flatMap_cons, groups]
      dsimp only
      rw [if_pos first, if_neg second, if_neg third]
      rfl

/-- One to three digits in front of the groups have no separator. -/
theorem separate_append {lead rest : List Char} (one : 1 ≤ lead.length) (three : lead.length ≤ 3)
    (h : rest.length % 3 = 0) :
    Decimal.separate (lead ++ rest).length (lead ++ rest) = lead ++ groupsOfThree rest := by
  have groups := flatMap_groups (lead ++ rest).length rest lead.length one List.length_append h
  rw [Decimal.separate, List.zipIdx_append, List.flatMap_append, Nat.zero_add, groups]
  refine congrArg (· ++ groupsOfThree rest) ?_
  rcases lead with - | ⟨a, - | ⟨b, - | ⟨c, - | ⟨d, lead⟩⟩⟩⟩
  · rfl
  · rfl
  · have second : ¬ (rest.length + 1) % 3 = 0 := by omega
    simp [second]
  · have second : ¬ (rest.length + 1 + 1) % 3 = 0 := by omega
    have third : ¬ (rest.length + 1) % 3 = 0 := by omega
    simp [second, third]
  · simp only [List.length_cons] at three
    omega

/-- Digits are one to three and groups of three. -/
theorem exists_lead {cs : List Char} (ne : cs ≠ []) : ∃ lead rest, cs = lead ++ rest ∧
    1 ≤ lead.length ∧ lead.length ≤ 3 ∧ rest.length % 3 = 0 := by
  have pos : 0 < cs.length := List.length_pos_iff.mpr ne
  refine ⟨cs.take ((cs.length - 1) % 3 + 1), cs.drop ((cs.length - 1) % 3 + 1),
    (List.take_append_drop _ _).symm, ?_⟩
  rw [List.length_take, List.length_drop]
  omega

/-- The groups are scanned as groups, up to the point. -/
theorem groupsLength_groups (fraction : List Char) : ∀ cs : List Char, (∀ c ∈ cs, c.isDigit) →
    groupsLength (groupsOfThree cs ++ point fraction) = (groupsOfThree cs).length
  | [], _ => groupsLength_point fraction
  | [_], _ => groupsLength_point fraction
  | [_, _], _ => groupsLength_point fraction
  | a :: b :: c :: rest, h => by
      have three : (a.isDigit && b.isDigit && c.isDigit) = true := by
        rw [h a (by simp), h b (by simp), h c (by simp)]
        rfl
      have groups := groupsLength_groups fraction rest fun d hd => h d (by simp [hd])
      simp only [groupsOfThree, List.cons_append, groupsLength, three, if_true, groups,
        List.length_cons]
      omega

/-- With its separators, the whole part ends in front of the point. -/
theorem wholeLength_separate {whole : List Char} (fraction : List Char)
    (digits : ∀ c ∈ whole, c.isDigit) (ne : whole ≠ []) :
    wholeLength (Decimal.separate whole.length whole ++ point fraction)
      = (Decimal.separate whole.length whole).length := by
  obtain ⟨lead, rest, rfl, one, three, groups⟩ := exists_lead ne
  have hl : ∀ c ∈ lead, c.isDigit := fun c hc => digits c (List.mem_append_left _ hc)
  have hr : ∀ c ∈ rest, c.isDigit := fun c hc => digits c (List.mem_append_right _ hc)
  have run : digitRun (lead ++ (groupsOfThree rest ++ point fraction)) = lead.length := by
    rcases rest with - | ⟨a, - | ⟨b, - | ⟨c, rest⟩⟩⟩
    · exact digitRun_point hl
    · exact digitRun_point hl
    · exact digitRun_point hl
    · rw [digitRun, List.takeWhile_append_of_pos hl]
      simp [groupsOfThree]
  rw [separate_append one three groups, List.append_assoc]
  simp only [wholeLength, run]
  rw [if_pos ⟨one, three⟩, List.drop_left, groupsLength_groups fraction rest hr,
    List.length_append]

namespace Decimal

/-! ### Digits -/

/-- The digits in front of the point and behind it spell the normal form. -/
theorem places_spec (d : Decimal) :
    d.places.1 ≠ [] ∧ (∀ c ∈ d.places.1 ++ d.places.2, c.isDigit) ∧
      d.places.2.length = d.normalForm.scale ∧
        valueOf (d.places.1 ++ d.places.2) = d.normalForm.significand.natAbs := by
  rw [places]
  generalize d.normalForm.significand.natAbs = n
  generalize d.normalForm.scale = scale
  have long : scale < (List.replicate (scale + 1 - (digits n).length) '0' ++ digits n).length := by
    rw [List.length_append, List.length_replicate]
    omega
  have value : valueOf (List.replicate (scale + 1 - (digits n).length) '0' ++ digits n) = n := by
    rw [← valueOf_dropWhile, List.dropWhile_append_of_pos (by simp), valueOf_dropWhile,
      valueOf_digits]
  have all : ∀ c ∈ List.replicate (scale + 1 - (digits n).length) '0' ++ digits n, c.isDigit := by
    intro c hc
    rcases List.mem_append.mp hc with hc | hc
    · rw [List.eq_of_mem_replicate hc]
      rfl
    · exact digits_isDigit n c hc
  generalize List.replicate (scale + 1 - (digits n).length) '0' ++ digits n = padded at *
  rw [List.splitAt_eq]
  refine ⟨fun nil => ?_, ?_, ?_, ?_⟩
  · have := congrArg List.length nil
    rw [List.length_take, List.length_nil] at this
    omega
  · rwa [List.take_append_drop]
  · rw [List.length_drop]
    omega
  · rwa [List.take_append_drop]

/-- The digits in front of the point. -/
theorem whole_isDigit (d : Decimal) : ∀ c ∈ d.places.1, c.isDigit :=
  fun c hc => d.places_spec.2.1 c (List.mem_append_left _ hc)

/-- The digits behind the point. -/
theorem fraction_isDigit (d : Decimal) : ∀ c ∈ d.places.2, c.isDigit :=
  fun c hc => d.places_spec.2.1 c (List.mem_append_right _ hc)

/-- Without its separators, the whole part is its digits. -/
theorem filter_places (d : Decimal) (bytes : Nat) :
    (separate bytes d.places.1).filter (· ≠ ',') = d.places.1 :=
  filter_separate _ _ fun hc => (ne_of_isDigit (d.whole_isDigit _ hc)).2.1 rfl

theorem isNegative_iff (d : Decimal) : d.isNegative ↔ d.value < 0 := by
  have pos : (0 : ℚ) < 10 ^ d.scale := by positivity
  rw [isNegative, decide_eq_true_iff, value, div_lt_iff₀ pos, zero_mul, Int.cast_lt_zero]

/-- The decimal without its sign. -/
def unsigned (d : Decimal) : Decimal := ⟨d.significand.natAbs, d.scale, d.scale_le⟩

theorem neg_unsigned {d : Decimal} (h : d.isNegative) : -d.unsigned = d := by
  obtain ⟨n, scale, scale_le⟩ := d
  have negative : n < 0 := of_decide_eq_true h
  show neg _ = _
  simp only [neg, unsigned, mk.injEq, and_true]
  omega

theorem unsigned_eq {d : Decimal} (h : ¬ d.isNegative) : d.unsigned = d := by
  obtain ⟨n, scale, scale_le⟩ := d
  have nonneg : ¬ n < 0 := fun negative => h (decide_eq_true negative)
  simp only [unsigned, mk.injEq, and_true]
  omega

/-! ### The numeral of a result -/

/-- The result without its sign, as it is written. -/
def numeral (d : Decimal) : String :=
  String.ofList (separate d.places.1.length d.places.1 ++ point d.places.2)

theorem toList_grouped (d : Decimal) :
    d.grouped.toList = (if d.isNegative then ['-'] else []) ++ d.numeral.toList := by
  rw [grouped, toList_assemble, numeral, String.toList_ofList]

theorem isNumeral_numeral (d : Decimal) : IsNumeral d.numeral := by
  have ne := d.places_spec.1
  refine isNumeral_of_wholeLength (wholeLength_separate _ d.whole_isDigit ne) d.fraction_isDigit
    fun nil => ?_
  have kept := d.filter_places d.places.1.length
  rw [(List.append_eq_nil_iff.mp nil).1] at kept
  exact ne kept.symm

theorem withoutSeparators_numeral (d : Decimal) :
    withoutSeparators d.numeral = assemble false d.places.1 d.places.2 := by
  rw [← String.toList_inj, withoutSeparators, numeral, String.toList_ofList, String.toList_ofList,
    List.filter_append, filter_places, filter_point d.fraction_isDigit, toList_assemble]
  rfl

/-- The numeral is read as the normal form without its sign. -/
theorem ofText_numeral (d : Decimal) :
    ofText (withoutSeparators d.numeral) = .ok d.normalForm.unsigned := by
  obtain ⟨ne, digits, scale, value⟩ := d.places_spec
  refine ofText_eq_ok_iff.mpr ⟨false, d.places.1, d.places.2, ⟨d.withoutSeparators_numeral, digits,
    fun nil => ne (List.append_eq_nil_iff.mp nil).1⟩, scale.symm, ?_⟩
  rw [value]
  simp [unsigned]

/-! ### Results as tokens -/

/-- The tokens of a result. -/
def tokens (d : Decimal) : List Token :=
  (if d.isNegative then [.minus] else []) ++ [.number d.numeral]

/-- A result is scanned as its tokens. -/
theorem scans_grouped (d : Decimal) : Scans d.grouped.toList d.tokens := by
  have numeral : Scans d.numeral.toList [.number d.numeral] :=
    Scans.text (t := .number d.numeral) d.isNumeral_numeral
  rw [toList_grouped, tokens]
  rcases d.isNegative with - | -
  · simpa only [Bool.false_eq_true, if_false, List.nil_append] using numeral
  · simpa only [if_true, List.singleton_append] using numeral.cons_sign (c := '-') rfl fun _ => rfl

/-- What is written depends on the value only. -/
theorem grouped_eq_of_value {a b : Decimal} (h : a.value = b.value) : a.grouped = b.grouped := by
  have negative : a.isNegative = b.isNegative := by
    rw [Bool.eq_iff_iff, isNegative_iff, isNegative_iff, h]
  rw [grouped, grouped, places, places, normalForm_eq_iff.mpr h, negative]

end Decimal
end Calculator
