import Calculator.Decimal.Text
import Calculator.Proofs.Scanning

/-!
# Numbers — the texts of numbers

`Spells text negative whole fraction` says how a text is a number: a minus sign or none, digits,
and digits behind a point unless there are none.

* `Decimal.ofText_eq_ok_iff`, `Decimal.ofText_eq_error_iff`: exactly these texts are read, and to
  what their digits spell, as long as their fractions can be counted.
* `Spells.isNumeral`: without a sign they are one numeral of a line.
-/

namespace Calculator

/-- The fraction behind its point; an empty fraction has no point. -/
def point (fraction : List Char) : List Char :=
  if fraction.isEmpty then [] else '.' :: fraction

/-- The text is a number in positional notation, with these digits. -/
structure Spells (text : String) (negative : Bool) (whole fraction : List Char) : Prop where
  text_eq : text = Decimal.assemble negative whole fraction
  digits : ∀ c ∈ whole ++ fraction, c.isDigit
  ne_nil : whole ++ fraction ≠ []

theorem toList_assemble (negative : Bool) (whole fraction : List Char) :
    (Decimal.assemble negative whole fraction).toList
      = (if negative then ['-'] else []) ++ (whole ++ point fraction) := by
  rw [Decimal.assemble, String.toList_ofList, List.append_assoc, point]

theorem point_cons (c : Char) (cs : List Char) : point (c :: cs) = '.' :: c :: cs := rfl

theorem drop_point (fraction : List Char) : (point fraction).drop 1 = fraction := by
  rcases fraction with - | ⟨d, fraction⟩ <;> rfl

/-- What is behind the point starts with the point. -/
theorem head_point (fraction : List Char) : ∀ c ∈ (point fraction).head?, c = '.' := by
  rcases fraction with - | ⟨d, fraction⟩
  · rintro _ ⟨⟩
  · rintro _ ⟨⟩
    rfl

theorem mem_point {fraction : List Char} {c : Char} (h : c ∈ point fraction) :
    c = '.' ∨ c ∈ fraction := by
  rcases fraction with - | ⟨d, fraction⟩
  · cases h
  · exact List.mem_cons.mp h

theorem ne_of_isDigit {c : Char} (h : c.isDigit) : c ≠ '.' ∧ c ≠ ',' ∧ c ≠ '-' := by
  refine ⟨?_, ?_, ?_⟩ <;> rintro rfl <;> exact absurd h (by decide)

/-- There is no sign among digits, separators and the point. -/
theorem sign_notMem {whole fraction : List Char} (hw : ∀ c ∈ whole, c.isDigit ∨ c = ',')
    (hf : ∀ c ∈ fraction, c.isDigit) : '-' ∉ whole ++ point fraction := by
  intro mem
  rcases List.mem_append.mp mem with mem | mem
  · rcases hw _ mem with digit | comma
    · exact (ne_of_isDigit digit).2.2 rfl
    · exact absurd comma (by decide)
  · rcases mem_point mem with point | mem
    · exact absurd point (by decide)
    · exact (ne_of_isDigit (hf _ mem)).2.2 rfl

theorem sign_notMem_of_digits {whole fraction : List Char}
    (h : ∀ c ∈ whole ++ fraction, c.isDigit) : '-' ∉ whole ++ point fraction :=
  sign_notMem (fun c hc => .inl (h c (List.mem_append_left _ hc)))
    fun c hc => h c (List.mem_append_right _ hc)

/-! ### Separators -/

/-- Digits have no separators among them. -/
theorem filter_digits {cs : List Char} (h : ∀ c ∈ cs, c.isDigit) : cs.filter (· ≠ ',') = cs :=
  List.filter_eq_self.mpr fun c hc => decide_eq_true (ne_of_isDigit (h c hc)).2.1

theorem filter_point {fraction : List Char} (h : ∀ c ∈ fraction, c.isDigit) :
    (point fraction).filter (· ≠ ',') = point fraction := by
  refine List.filter_eq_self.mpr fun c hc => decide_eq_true ?_
  rcases mem_point hc with rfl | hc
  · decide
  · exact (ne_of_isDigit (h c hc)).2.1

/-! ### Reading -/

namespace Decimal

/-- What is in front of a point, and what starts with it. -/
theorem span_of_notMem {front rest : List Char} (h : '.' ∉ front)
    (starts : ∀ c ∈ rest.head?, c = '.') :
    (front ++ rest).takeWhile (· ≠ '.') = front ∧ (front ++ rest).dropWhile (· ≠ '.') = rest := by
  have hf : ∀ c ∈ front, decide (c ≠ '.') = true := fun c hc =>
    decide_eq_true fun e => h (e ▸ hc)
  rw [List.takeWhile_append_of_pos hf, List.dropWhile_append_of_pos hf]
  rcases rest with - | ⟨c, rest⟩
  · simp
  · obtain rfl := starts c rfl
    simp

/-- Digits up to the point, and the point with the digits behind it. -/
theorem span_point {whole fraction : List Char} (h : ∀ c ∈ whole ++ fraction, c.isDigit) :
    (whole ++ point fraction).takeWhile (· ≠ '.') = whole ∧
      (whole ++ point fraction).dropWhile (· ≠ '.') = point fraction :=
  span_of_notMem (fun hc => (ne_of_isDigit (h '.' (List.mem_append_left _ hc))).1 rfl)
    (head_point fraction)

theorem ofUnsigned?_point {whole fraction : List Char} (h : ∀ c ∈ whole ++ fraction, c.isDigit)
    (ne : whole ++ fraction ≠ []) (short : fraction.length ≤ maxScale) :
    ofUnsigned? (whole ++ point fraction)
      = some ⟨valueOf (whole ++ fraction), fraction.length, short⟩ := by
  have length : (point fraction).length ≠ 1 := by
    rcases fraction with - | ⟨d, fraction⟩ <;> simp [point]
  have all : (whole ++ fraction).all Char.isDigit := List.all_eq_true.mpr h
  obtain ⟨take, rest⟩ := span_point h
  simp only [ofUnsigned?, take, rest, drop_point]
  rw [dif_pos short, if_pos ⟨length, ne, all⟩]

/-- Texts without a sign that are read are digits with digits behind a point. -/
theorem exists_of_ofUnsigned? {cs : List Char} {d : Decimal} (h : ofUnsigned? cs = some d) :
    ∃ whole fraction, cs = whole ++ point fraction ∧ (∀ c ∈ whole ++ fraction, c.isDigit) ∧
      whole ++ fraction ≠ [] ∧ d.scale = fraction.length ∧
        d.significand = valueOf (whole ++ fraction) := by
  obtain ⟨scale, significand⟩ := ofUnsigned?_eq_some h
  rw [ofUnsigned?] at h
  split at h
  · split at h
    · rename_i cond
      obtain ⟨length, ne, all⟩ := cond
      refine ⟨_, _, ?_, List.all_eq_true.mp all, ne, by rw [scale, List.length_drop], significand⟩
      have rest : cs.dropWhile (· ≠ '.') = point ((cs.dropWhile (· ≠ '.')).drop 1) := by
        have head := List.head?_dropWhile_not (fun c : Char => decide (c ≠ '.')) cs
        rcases hd : cs.dropWhile (· ≠ '.') with - | ⟨c, - | ⟨c', rest⟩⟩
        · rfl
        · exact absurd (congrArg List.length hd) length
        · rw [hd] at head
          obtain rfl : c = '.' := by simpa using head
          rfl
      rw [← rest, List.takeWhile_append_dropWhile]
    · cases h
  · cases h

/-- **Reading numbers.**  A text is read if and only if it spells a number whose fraction can be
counted, and to the number that its digits spell. -/
theorem ofText_eq_ok_iff {text : String} {d : Decimal} :
    ofText text = .ok d ↔ ∃ negative whole fraction, Spells text negative whole fraction ∧
      d.scale = fraction.length ∧
        d.significand = (if negative then -1 else 1) * valueOf (whole ++ fraction) := by
  have ok : ofText text = .ok d ↔ ofChars? text.toList = some d := by
    rw [ofText]
    cases ofChars? text.toList <;> simp
  rw [ok]
  constructor
  · intro h
    unfold ofChars? at h
    split at h
    · rename_i cs hcs
      obtain ⟨u, hu, rfl⟩ := Option.map_eq_some_iff.mp h
      obtain ⟨whole, fraction, e, digits, ne, scale, significand⟩ := exists_of_ofUnsigned? hu
      refine ⟨true, whole, fraction, ⟨?_, digits, ne⟩, scale, ?_⟩
      · rw [← String.toList_inj, hcs, toList_assemble, e]
        rfl
      · simp [neg, significand]
    · obtain ⟨whole, fraction, e, digits, ne, scale, significand⟩ := exists_of_ofUnsigned? h
      refine ⟨false, whole, fraction, ⟨?_, digits, ne⟩, scale, ?_⟩
      · rw [← String.toList_inj, toList_assemble, e]
        rfl
      · simp [significand]
  · rintro ⟨negative, whole, fraction, ⟨rfl, digits, ne⟩, scale, significand⟩
    have short : fraction.length ≤ maxScale := scale ▸ d.scale_le
    have read := ofUnsigned?_point digits ne short
    obtain ⟨n, k, hk⟩ := d
    obtain rfl : k = fraction.length := scale
    obtain rfl : n = (if negative then -1 else 1) * valueOf (whole ++ fraction) := significand
    rw [toList_assemble]
    cases negative with
    | true => simp [ofChars?, read, neg]
    | false =>
        -- the text starts with a digit or a point, not with a sign
        have head : ∀ cs, whole ++ point fraction ≠ '-' :: cs := fun cs e =>
          sign_notMem_of_digits digits (e ▸ List.mem_cons_self)
        rw [ofChars?]
        · simpa using read
        · intro cs e
          exact head cs (by simpa using e)

theorem eq_of_ofText_eq_error {text : String} {e : NotDecimal} (h : ofText text = .error e) :
    e = ⟨text⟩ := by
  rw [ofText] at h
  split at h
  · cases h
  · exact (Except.error.inj h).symm

/-- Any other text is refused as it stands: it spells no number, or one whose fraction cannot be
counted. -/
theorem ofText_eq_error_iff {text : String} {e : NotDecimal} : ofText text = .error e ↔
    e = ⟨text⟩ ∧ ∀ negative whole fraction, Spells text negative whole fraction →
      maxScale < fraction.length := by
  constructor
  · intro refused
    refine ⟨eq_of_ofText_eq_error refused, fun negative whole fraction spells => ?_⟩
    refine Nat.lt_of_not_le fun short => ?_
    have read : ofText text = .ok ⟨(if negative then -1 else 1) * valueOf (whole ++ fraction),
        fraction.length, short⟩ :=
      ofText_eq_ok_iff.mpr ⟨negative, whole, fraction, spells, rfl, rfl⟩
    cases refused.symm.trans read
  · rintro ⟨rfl, long⟩
    rcases read : ofText text with e | d
    · rw [eq_of_ofText_eq_error read]
    · obtain ⟨negative, whole, fraction, spells, scale, -⟩ := ofText_eq_ok_iff.mp read
      exact absurd (scale ▸ d.scale_le) (Nat.not_le.mpr (long negative whole fraction spells))

end Decimal

/-! ### Numerals -/

theorem digitRun_point {whole fraction : List Char} (h : ∀ c ∈ whole, c.isDigit) :
    digitRun (whole ++ point fraction) = whole.length := by
  rw [digitRun, List.takeWhile_append_of_pos h]
  rcases fraction with - | ⟨d, fraction⟩ <;> simp [point]

theorem groupsLength_point (fraction : List Char) : groupsLength (point fraction) = 0 := by
  rcases fraction with - | ⟨d, fraction⟩ <;> rfl

theorem fractionLength_point {fraction : List Char} (h : ∀ c ∈ fraction, c.isDigit) :
    fractionLength (point fraction) = (point fraction).length := by
  rcases fraction with - | ⟨d, fraction⟩
  · rfl
  · have run : digitRun (d :: fraction) = fraction.length + 1 := by
      simpa [point] using @digitRun_point (d :: fraction) [] h
    simp only [point_cons, fractionLength, run, List.length_cons]
    rw [if_neg (Nat.succ_ne_zero _)]
    omega

/-- Where the whole part ends in front of the point, the numeral ends behind the fraction. -/
theorem isNumeral_of_wholeLength {whole fraction : List Char}
    (hw : wholeLength (whole ++ point fraction) = whole.length) (hf : ∀ c ∈ fraction, c.isDigit)
    (ne : whole ++ fraction ≠ []) : IsNumeral (String.ofList (whole ++ point fraction)) := by
  rw [IsNumeral, String.toList_ofList]
  constructor
  · rcases fraction with - | ⟨d, fraction⟩
    · simpa [point] using ne
    · simp [point]
  · rw [numeralLength, hw, List.drop_left, fractionLength_point hf, List.length_append]

/-- A number without a sign is one numeral. -/
theorem Spells.isNumeral {text : String} {whole fraction : List Char}
    (h : Spells text false whole fraction) : IsNumeral text := by
  obtain ⟨rfl, digits, ne⟩ := h
  have hw : ∀ c ∈ whole, c.isDigit := fun c hc => digits c (List.mem_append_left _ hc)
  have hf : ∀ c ∈ fraction, c.isDigit := fun c hc => digits c (List.mem_append_right _ hc)
  have length : wholeLength (whole ++ point fraction) = whole.length := by
    simp only [wholeLength, digitRun_point hw, List.drop_left, groupsLength_point, Nat.add_zero,
      ite_self]
  rw [show Decimal.assemble false whole fraction = String.ofList (whole ++ point fraction) from
    String.toList_inj.mp (by rw [toList_assemble, String.toList_ofList]; rfl)]
  exact isNumeral_of_wholeLength length hf ne

end Calculator
