import Calculator.Proofs.PlainText

/-!
# Numbers — text with separators

A number may have separators in its whole part, between any of its digits and more than one in a
row, but neither in front of them all nor behind them.  Where the separators stand is looked at
before the sign is taken off, so that behind a minus sign a separator is not seen to be in front of
all digits.

* `Separated.spells`: without its separators, such a text spells a number.
* `Decimal.ofGrouped_eq_ok_iff`: which texts with separators are read, and to what.
* `Decimal.ofGrouped_separated`: **a text is read if and only if no separator ends its whole part,
  or starts it without a minus sign in front.**
* `Decimal.ofGrouped_signedSeparator`: `-,5` is read, and `,5` is not.
-/

namespace Calculator

/-! ### Separators in a whole part -/

/-- The digits of a whole part with their sign. -/
def signed (negative : Bool) (whole : List Char) : List Char :=
  (if negative then ['-'] else []) ++ whole

/-- The text is a number with separators in its whole part, wherever they stand. -/
structure Separated (text : String) (negative : Bool) (whole fraction : List Char) : Prop where
  text_eq : text = Decimal.assemble negative whole fraction
  whole_chars : ∀ c ∈ whole, c.isDigit ∨ c = ','
  fraction_digits : ∀ c ∈ fraction, c.isDigit
  exists_digit : ∃ c ∈ whole ++ fraction, c.isDigit

/-- No separator starts the characters or ends them. -/
def SeparatesInside (cs : List Char) : Prop := cs.head? ≠ some ',' ∧ cs.getLast? ≠ some ','

variable {text : String} {negative : Bool} {whole fraction cs : List Char}

theorem toList_signed (negative : Bool) (whole fraction : List Char) :
    (Decimal.assemble negative whole fraction).toList = signed negative whole ++ point fraction := by
  rw [toList_assemble, signed, List.append_assoc]

theorem separatesInside_neg_iff :
    SeparatesInside ('-' :: cs) ↔ cs.getLast? ≠ some ',' := by
  rw [SeparatesInside, List.head?_cons, List.getLast?_cons]
  rcases cs.getLast? with - | c <;> simp

/-- A sign takes no separator into the whole part. -/
theorem filter_signed (negative : Bool) (whole : List Char) :
    (signed negative whole).filter (· ≠ ',') = signed negative (whole.filter (· ≠ ',')) := by
  rcases negative <;> simp [signed]

/-- Characters that start with a sign, if they do not start with a separator. -/
theorem exists_signed (head : cs.head? ≠ some ',')
    (h : cs.filter (· ≠ ',') = signed negative whole) :
    ∃ separated, cs = signed negative separated ∧ separated.filter (· ≠ ',') = whole := by
  rcases negative with - | -
  · exact ⟨cs, rfl, h⟩
  · rcases cs with - | ⟨c, cs⟩
    · cases h
    · have ne : c ≠ ',' := fun e => head (congrArg some e)
      rw [List.filter_cons, if_pos (decide_eq_true ne)] at h
      obtain ⟨rfl, rfl⟩ := List.cons.inj h
      exact ⟨cs, rfl, rfl⟩

/-- Where no separator is behind the point, they are taken out in front of it. -/
theorem toList_withoutSeparators {front rest : List Char} (cut : text.toList = front ++ rest)
    (behind : ',' ∉ rest) :
    (withoutSeparators text).toList = front.filter (· ≠ ',') ++ rest := by
  have kept : rest.filter (· ≠ ',') = rest :=
    List.filter_eq_self.mpr fun c mem => decide_eq_true fun e => behind (e ▸ mem)
  rw [withoutSeparators, String.toList_ofList, cut, List.filter_append, kept]

namespace Separated

theorem toList_eq (h : Separated text negative whole fraction) :
    text.toList = signed negative whole ++ point fraction := by
  rw [h.text_eq, toList_signed]

/-- No point is in front of the fraction. -/
theorem point_notMem (h : Separated text negative whole fraction) : '.' ∉ signed negative whole := by
  intro mem
  rcases List.mem_append.mp mem with mem | mem
  · rcases negative <;> simp at mem
  · rcases h.whole_chars _ mem with digit | comma
    · exact (ne_of_isDigit digit).1 rfl
    · exact absurd comma (by decide)

/-- No separator is behind the point. -/
theorem separator_notMem (h : Separated text negative whole fraction) : ',' ∉ point fraction := by
  intro mem
  rcases mem_point mem with comma | mem
  · exact absurd comma (by decide)
  · exact (ne_of_isDigit (h.fraction_digits _ mem)).2.1 rfl

/-- Without its separators, the text spells a number. -/
theorem spells (h : Separated text negative whole fraction) :
    Spells (withoutSeparators text) negative (whole.filter (· ≠ ',')) fraction := by
  refine ⟨?_, fun c mem => ?_, fun nil => ?_⟩
  · rw [← String.toList_inj, toList_withoutSeparators h.toList_eq h.separator_notMem, filter_signed,
      toList_signed]
  · rcases List.mem_append.mp mem with mem | mem
    · obtain ⟨mem, separates⟩ := List.mem_filter.mp mem
      exact (h.whole_chars c mem).resolve_right (of_decide_eq_true separates)
    · exact h.fraction_digits c mem
  · obtain ⟨c, mem, digit⟩ := h.exists_digit
    have kept : c ∈ (whole ++ fraction).filter (· ≠ ',') :=
      List.mem_filter.mpr ⟨mem, decide_eq_true (ne_of_isDigit digit).2.1⟩
    rw [List.filter_append, filter_digits h.fraction_digits, nil] at kept
    cases kept

/-- A number without separators. -/
theorem of_digits (h : Spells text negative whole fraction) :
    Separated text negative whole fraction := by
  obtain ⟨hw, hf⟩ := List.forall_mem_append.mp h.digits
  obtain ⟨c, mem⟩ := List.exists_mem_of_ne_nil _ h.ne_nil
  exact ⟨h.text_eq, fun c mem => .inl (hw c mem), hf, c, mem, h.digits c mem⟩

/-- A text that spells a number without its separators, which are in its whole part. -/
theorem of_spells {digits : List Char} (text_eq : text.toList = signed negative whole ++ point fraction)
    (kept : whole.filter (· ≠ ',') = digits)
    (h : Spells (withoutSeparators text) negative digits fraction) :
    Separated text negative whole fraction := by
  obtain ⟨hw, hf⟩ := List.forall_mem_append.mp h.digits
  refine ⟨?_, fun c mem => ?_, hf, ?_⟩
  · rw [← String.toList_inj, toList_signed, text_eq]
  · by_cases comma : c = ','
    · exact .inr comma
    · exact .inl (hw c (kept ▸ List.mem_filter.mpr ⟨mem, decide_eq_true comma⟩))
  · obtain ⟨c, mem⟩ := List.exists_mem_of_ne_nil _ h.ne_nil
    refine ⟨c, ?_, h.digits c mem⟩
    rcases List.mem_append.mp mem with mem | mem
    · exact List.mem_append_left _ (List.mem_filter.mp (kept ▸ mem)).1
    · exact List.mem_append_right _ mem

/-- A number with separators that starts with a minus sign is negative. -/
theorem head?_eq_iff (h : Separated text negative whole fraction) :
    text.toList.head? = some '-' ↔ negative = true := by
  rw [h.toList_eq, signed]
  rcases negative with - | -
  · exact iff_of_false (fun head => sign_notMem h.whole_chars h.fraction_digits
      (List.mem_of_head? head)) Bool.false_ne_true
  · exact iff_of_true rfl rfl

/-- A minus sign makes a number with separators negative that has no sign. -/
theorem neg_iff : Separated ("-" ++ text) true whole fraction ↔
    Separated text false whole fraction := by
  have text_eq : "-" ++ text = Decimal.assemble true whole fraction ↔
      text = Decimal.assemble false whole fraction := by
    rw [← String.toList_inj, ← String.toList_inj, String.toList_append, toList_signed,
      toList_signed]
    exact List.cons_inj_right '-'
  exact ⟨fun ⟨e, hw, hf, digit⟩ => ⟨text_eq.mp e, hw, hf, digit⟩,
    fun ⟨e, hw, hf, digit⟩ => ⟨text_eq.mpr e, hw, hf, digit⟩⟩

/-- With its sign, a whole part may also start with a separator behind the sign. -/
theorem separatesInside_iff (h : Separated text negative whole fraction) :
    SeparatesInside (signed negative whole) ↔ SeparatesInside whole ∨
      ['-', ','] <+: text.toList ∧ whole.getLast? ≠ some ',' := by
  rcases negative with - | -
  · have unsigned : ¬ ['-', ','] <+: text.toList := fun ⟨rest, starts⟩ =>
      Bool.false_ne_true (h.head?_eq_iff.mp (starts ▸ rfl))
    exact ⟨.inl, Or.rec id fun ⟨starts, _⟩ => absurd starts unsigned⟩
  · rw [signed, if_pos rfl, List.singleton_append, separatesInside_neg_iff]
    refine ⟨fun last => ?_, Or.rec And.right And.right⟩
    by_cases head : whole.head? = some ','
    · obtain ⟨whole, rfl⟩ := List.head?_eq_some_iff.mp head
      exact .inr ⟨⟨whole ++ point fraction, h.toList_eq.symm⟩, last⟩
    · exact .inl ⟨head, last⟩

end Separated

namespace Decimal

variable {d : Decimal}

/-! ### Reading -/

/-- A text is what is in front of its point, and what starts with it. -/
theorem exists_cut (cs : List Char) : ∃ front rest, cs = front ++ rest ∧ '.' ∉ front ∧
    ∀ c ∈ rest.head?, c = '.' := by
  refine ⟨_, _, (List.takeWhile_append_dropWhile (p := (fun c => decide (c ≠ '.')))).symm,
    fun mem => ?_, fun c hc => ?_⟩
  · simpa using List.all_eq_true.mp List.all_takeWhile _ mem
  · have starts := List.head?_dropWhile_not (fun c : Char => decide (c ≠ '.')) cs
    rw [Option.mem_def.mp hc] at starts
    simpa using starts

variable {front rest : List Char}

/-- A text with separators is read without them, unless there are some behind the point or at an end
of what is in front of it, the sign included. -/
theorem ofGrouped_cut_iff (cut : text.toList = front ++ rest) (before : '.' ∉ front)
    (starts : ∀ c ∈ rest.head?, c = '.') : ofGrouped text = .ok d ↔
      ',' ∉ rest ∧ SeparatesInside front ∧ ofText (withoutSeparators text) = .ok d := by
  obtain ⟨take, drop⟩ := span_of_notMem before starts
  simp only [ofGrouped, cut, take, drop]
  split
  · rename_i misplaced
    refine ⟨nofun, ?_⟩
    rintro ⟨behind, inside, -⟩
    rcases misplaced with comma | comma | comma
    · exact absurd (List.contains_iff_mem.mp comma) behind
    · exact absurd comma inside.1
    · exact absurd comma inside.2
  · rename_i placed
    obtain ⟨behind, inside⟩ := not_or.mp placed
    have behind : ',' ∉ rest := mt List.contains_iff_mem.mpr behind
    rw [ofText, toList_withoutSeparators cut behind, SeparatesInside, ← not_or,
      and_iff_right behind, and_iff_right inside]
    rcases ofChars? _ with - | d' <;> simp

/-- **Reading with separators.**  A text is read if and only if it is a number with separators in its
whole part, none of them at an end of the whole part with its sign, and to the number that it spells
without them. -/
theorem ofGrouped_eq_ok_iff : ofGrouped text = .ok d ↔ ∃ negative whole fraction,
    Separated text negative whole fraction ∧ SeparatesInside (signed negative whole) ∧
      d.scale = fraction.length ∧ d.significand
        = (if negative then -1 else 1) * valueOf (whole.filter (· ≠ ',') ++ fraction) := by
  constructor
  · intro read
    obtain ⟨front, rest, cut, before, starts⟩ := exists_cut text.toList
    obtain ⟨behind, inside, read⟩ := (ofGrouped_cut_iff cut before starts).mp read
    obtain ⟨negative, digits, fraction, spells, value⟩ := ofText_eq_ok_iff.mp read
    -- without the separators the text is cut at the same point
    have kept : front.filter (· ≠ ',') ++ rest = signed negative digits ++ point fraction := by
      rw [← toList_withoutSeparators cut behind, spells.text_eq, toList_signed]
    obtain ⟨take, drop⟩ := span_of_notMem (fun mem => before (List.mem_filter.mp mem).1) starts
    obtain ⟨take', drop'⟩ :=
      span_of_notMem (Separated.of_digits spells).point_notMem (head_point fraction)
    obtain ⟨whole, rfl, rfl⟩ := exists_signed inside.1 (take.symm.trans (kept ▸ take'))
    obtain rfl := drop.symm.trans (kept ▸ drop')
    exact ⟨negative, whole, fraction, .of_spells cut rfl spells, inside, value⟩
  · rintro ⟨negative, whole, fraction, separated, inside, value⟩
    have read : ofText (withoutSeparators text) = .ok d :=
      ofText_eq_ok_iff.mpr ⟨negative, _, fraction, separated.spells, value⟩
    exact (ofGrouped_cut_iff separated.toList_eq separated.point_notMem (head_point fraction)).mpr
      ⟨separated.separator_notMem, inside, read⟩

/-- A number with separators whose fraction can be counted is read, and to what is read without
them. -/
theorem exists_of_separated (h : Separated text negative whole fraction)
    (inside : SeparatesInside (signed negative whole)) (short : fraction.length < 2 ^ 32) :
    ∃ d, ofGrouped text = .ok d ∧ ofText (withoutSeparators text) = .ok d ∧
      d.scale = fraction.length ∧ d.significand
        = (if negative then -1 else 1) * valueOf (whole.filter (· ≠ ',') ++ fraction) := by
  obtain ⟨d, read, value⟩ := exists_of_spells h.spells short
  exact ⟨d, ofGrouped_eq_ok_iff.mpr ⟨_, _, _, h, inside, value⟩, read, value⟩

/-- Any other text is refused, and the refusal carries the text. -/
theorem ofGrouped_eq_error_iff : ofGrouped text = .error ⟨text⟩ ↔
    ¬ ∃ negative whole fraction, Separated text negative whole fraction ∧
      SeparatesInside (signed negative whole) ∧ fraction.length < 2 ^ 32 := by
  constructor
  · rintro refused ⟨negative, whole, fraction, separated, inside, short⟩
    obtain ⟨d, read, -⟩ := exists_of_separated separated inside short
    rw [refused] at read
    cases read
  · intro none
    rcases read : ofGrouped text with e | d
    · rw [ofGrouped] at read
      split at read
      · exact read.symm
      · split at read
        · cases read
        · exact read.symm
    · obtain ⟨negative, whole, fraction, separated, inside, scale, -⟩ :=
        ofGrouped_eq_ok_iff.mp read
      exact absurd ⟨negative, whole, fraction, separated, inside,
        length_le_maxScale_iff.mp (scale ▸ d.scale_le)⟩ none

/-! ### The sign -/

/-- In front of a text that starts neither with a sign nor with a separator, a minus sign changes
the sign of the number and nothing else. -/
theorem ofGrouped_neg_iff (unsigned : text.toList.head? ≠ some '-')
    (starts : text.toList.head? ≠ some ',') :
    ofGrouped ("-" ++ text) = .ok d ↔ ofGrouped text = .ok (-d) := by
  have scale : (-d).scale = d.scale := rfl
  have significand (n : Nat) : (-d).significand = 1 * (n : Int) ↔ d.significand = -1 * (n : Int) := by
    have neg : (-d).significand = -d.significand := rfl
    rw [neg]
    omega
  rw [ofGrouped_eq_ok_iff, ofGrouped_eq_ok_iff, scale]
  constructor
  · rintro ⟨negative, whole, fraction, separated, inside, length, value⟩
    obtain rfl : negative = true := separated.head?_eq_iff.mp (by rw [String.toList_append]; rfl)
    have separated := Separated.neg_iff.mp separated
    refine ⟨false, whole, fraction, separated, ⟨fun head => starts ?_, ?_⟩, length,
      (significand _).mpr value⟩
    · rw [separated.toList_eq, List.head?_append, head]
      rfl
    · exact separatesInside_neg_iff.mp inside
  · rintro ⟨negative, whole, fraction, separated, inside, length, value⟩
    obtain rfl : negative = false := by
      rw [← Bool.not_eq_true, ← separated.head?_eq_iff]
      exact unsigned
    exact ⟨true, whole, fraction, Separated.neg_iff.mpr separated,
      separatesInside_neg_iff.mpr inside.2, length, (significand _).mp value⟩

/-- **Text with separators.**  A number with separators in its whole part is read if and only if none
is at an end of the whole part with its sign, and its fraction can be counted: to the number that
it is without them.  Any other text is refused and named in the refusal.  So a separator may start
the whole part behind a minus sign, and only there; elsewhere, a minus sign that is put in front of
a text without a sign changes the sign of the number and nothing else. -/
theorem ofGrouped_separated (text : String) :
    (∀ negative whole fraction, Separated text negative whole fraction →
        SeparatesInside (signed negative whole) → fraction.length < 2 ^ 32 →
          ∃ d, ofGrouped text = .ok d ∧ ofText (withoutSeparators text) = .ok d ∧
            d.scale = fraction.length ∧ d.significand
              = (if negative then -1 else 1) * valueOf (whole.filter (· ≠ ',') ++ fraction)) ∧
      (ofGrouped text = .error ⟨text⟩ ↔
        ¬ ∃ negative whole fraction, Separated text negative whole fraction ∧
          SeparatesInside (signed negative whole) ∧ fraction.length < 2 ^ 32) ∧
      (∀ negative whole fraction, Separated text negative whole fraction →
        (SeparatesInside (signed negative whole) ↔ SeparatesInside whole ∨
          ['-', ','] <+: text.toList ∧ whole.getLast? ≠ some ',')) ∧
      (text.toList.head? ≠ some '-' → text.toList.head? ≠ some ',' →
        ∀ d, ofGrouped ("-" ++ text) = .ok d ↔ ofGrouped text = .ok (-d)) :=
  ⟨fun _ _ _ => exists_of_separated, ofGrouped_eq_error_iff,
    fun _ _ _ separated => separated.separatesInside_iff,
    fun unsigned starts _ => ofGrouped_neg_iff unsigned starts⟩

/-- Behind a minus sign, a separator in front of all digits is not seen. -/
theorem ofGrouped_signedSeparator :
    ofGrouped "-,5" = .ok ⟨-5, 0, by decide⟩ ∧ ofGrouped ",5" = .error ⟨",5"⟩ ∧
      ¬ ∃ negative whole fraction,
        Separated "-,5" negative whole fraction ∧ SeparatesInside whole := by
  refine ⟨by decide, by decide, ?_⟩
  rintro ⟨negative, whole, fraction, separated, inside⟩
  obtain rfl : negative = true := separated.head?_eq_iff.mp rfl
  have rest : [',', '5'] = whole ++ point fraction := List.cons.inj separated.toList_eq |>.2
  rcases whole with - | ⟨c, whole⟩
  · exact absurd (head_point fraction ',' (by rw [← List.nil_append (point fraction), ← rest]; rfl))
      (by decide)
  · obtain ⟨rfl, -⟩ := List.cons.inj rest
    exact inside.1 rfl

/-- Separators may stand in any number between digits. -/
example : ofGrouped "1,,23.50" = .ok ⟨12350, 2, by decide⟩ ∧
    ofGrouped "1,.5" = .error ⟨"1,.5"⟩ := by decide

end Decimal
end Calculator
