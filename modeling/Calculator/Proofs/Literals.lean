import Calculator.Proofs.Lines
import Calculator.Proofs.Nodes
import Calculator.Proofs.SeparatedText

/-!
# Evaluation — literals

Three patterns of numerals, the separators taken out of them and the reader of decimals have to
agree on every text that a line may hold.

* `exists_separated`: a numeral is a number with separators in its whole part.
* `spells_withoutSeparators`: so without its separators it spells a number.
* `literals_valid`: **every literal has a value**, the number that its digits spell, and no line
  fails because of one.
-/

namespace Calculator

open scoped Computability

/-! ### The parts of a numeral -/

/-- A numeral is a number with separators in its whole part, and without a sign. -/
theorem exists_separated {text : String} (h : text.toList ∈ Pattern.numeral) :
    ∃ whole fraction, Separated text false whole fraction := by
  have unsigned (h : text.toList ∈ Pattern.dotted + Pattern.digits) :
      ∃ whole fraction, Separated text false whole fraction := by
    obtain ⟨whole, fraction, e, all, ne⟩ := Pattern.mem_unsigned_iff.mp h
    refine ⟨whole, fraction, .of_digits ⟨?_, all, ne⟩⟩
    rw [← String.toList_inj, toList_signed, e]
    rfl
  rcases h with (grouped | dotted) | digits
  · -- the first group has a digit, and all others come behind separators
    obtain ⟨_, whole, tail, ht, e⟩ := Language.mem_mul.mp grouped
    obtain ⟨lead, hl, groups, hg, rfl⟩ := Language.mem_mul.mp whole
    obtain ⟨⟨one, -⟩, hl⟩ := Pattern.mem_lead.mp hl
    obtain ⟨fraction, rfl, hf⟩ := Pattern.mem_point_iff.mp ht
    obtain ⟨c, rest, rfl⟩ := List.exists_cons_of_length_pos one
    refine ⟨c :: rest ++ groups, fraction, ?_, fun d mem => ?_, hf, c, by simp, hl c (by simp)⟩
    · rw [← String.toList_inj, toList_signed, ← e]
      rfl
    · rcases List.mem_append.mp mem with mem | mem
      · exact .inl (hl d mem)
      · exact Pattern.mem_groups_chars (Pattern.mem_groups hg) d mem
  · exact unsigned (.inl dotted)
  · exact unsigned (.inr digits)

/-- Without its separators, a numeral spells a number; its digits are no more than its
characters. -/
theorem spells_withoutSeparators {text : String} (h : text.toList ∈ Pattern.numeral) :
    ∃ whole fraction, Spells (withoutSeparators text) false whole fraction ∧
      fraction.length ≤ text.toList.length := by
  obtain ⟨whole, fraction, separated⟩ := exists_separated h
  refine ⟨_, fraction, separated.spells, ?_⟩
  rw [separated.toList_eq, List.length_append]
  rcases fraction with - | ⟨d, fraction⟩
  · exact Nat.zero_le _
  · simp only [point_cons, List.length_cons]
    omega

/-! ### The literals of a line -/

/-- The numerals of a line have one of the three patterns, and are no longer than the line. -/
theorem numeral_of_scan {line text : String} {xs : List Lexeme} {span : Span}
    (h : scan line = .ok xs) (mem : ⟨.number text, span⟩ ∈ xs) :
    text.toList ∈ Pattern.numeral ∧ text.toList.length ≤ line.utf8ByteSize := by
  obtain ⟨-, before, after, stands, longest⟩ := (tiled_of_scan h).token _ mem
  refine ⟨longest.mem.2, ?_⟩
  have size := length_le_byteLength line.toList
  rw [byteLength_toList, stands.line_eq] at size
  simp only [List.length_append, Token.text] at size
  omega

/-- A text that spells a number that can be counted is evaluated to that number. -/
theorem evaluateLiteral_of_spells {text : String} {whole fraction : List Char}
    (h : Spells text false whole fraction) (short : fraction.length ≤ maxScale) (span : Span) :
    evaluateLiteral text span = .ok ⟨valueOf (whole ++ fraction), fraction.length, short⟩ := by
  have read : Decimal.ofText text = .ok ⟨valueOf (whole ++ fraction), fraction.length, short⟩ :=
    Decimal.ofText_eq_ok_iff.mpr ⟨false, whole, fraction, h, rfl, (Int.one_mul _).symm⟩
  rw [evaluateLiteral, read]

/-- A literal of a line that is parsed spells a number that is not negative, and has it as its
value. -/
theorem exists_value_of_mem_nodes {line text : String} {t : ExprTree} {span : Span}
    (short : line.utf8ByteSize < 2 ^ 32) (parsed : parse line = .ok t)
    (mem : .num text span ∈ t.toExpr.nodes) : ∃ d whole fraction,
      evaluateLiteral text span = .ok d ∧ Spells text false whole fraction ∧
        d.isNegative = false ∧ d.scale = fraction.length ∧
          d.significand = valueOf (whole ++ fraction) := by
  obtain ⟨written, lexeme, rfl⟩ := Tree.exists_lexeme_of_mem_nodes mem
  obtain ⟨pattern, length⟩ := numeral_of_scan (scan_of_parse parsed).1 lexeme
  obtain ⟨whole, fraction, spells, counted⟩ := spells_withoutSeparators pattern
  have short : fraction.length ≤ maxScale := by
    rw [maxScale]
    omega
  refine ⟨_, whole, fraction, evaluateLiteral_of_spells spells short span, spells, ?_, rfl, rfl⟩
  rw [Decimal.isNegative, decide_eq_false_iff_not, Int.not_lt]
  exact Int.natCast_nonneg _

/-- **Every literal has a value.**  The literals of a line that is parsed spell numbers that are not
negative, with as many fractional digits as are written, and have these as their values, if the line
is no longer than fractional digits can be counted.  So no such line fails because of a literal. -/
theorem literals_valid {source : String} (short : source.utf8ByteSize < 2 ^ 32) :
    (∀ t, parse source = .ok t → ∀ text span, .num text span ∈ t.toExpr.nodes →
      ∃ d whole fraction, evaluateLiteral text span = .ok d ∧ Spells text false whole fraction ∧
        d.isNegative = false ∧ d.scale = fraction.length ∧
          d.significand = valueOf (whole ++ fraction)) ∧
      ∀ limits d e text, answerLine limits source = .error d → d.failure = .evaluation e →
        e.cause ≠ .invalidLiteral text := by
  refine ⟨fun t parsed text span mem => exists_value_of_mem_nodes short parsed mem, ?_⟩
  intro limits d e text failed cause
  obtain ⟨t, parsed, failed⟩ := exists_of_evaluation failed cause
  rcases Expr.evaluate_eq_error failed with
    ⟨text, span, mem, invalid⟩ | ⟨op, a, b, right, span, -, -, applied⟩
  · have short := Nat.lt_of_le_of_lt (utf8ByteSize_trimLineEnd_le source) short
    obtain ⟨value, -, -, valid, -⟩ := exists_value_of_mem_nodes short parsed mem
    cases valid.symm.trans invalid
  · exact (Operator.apply_eq_error applied).2 text

/-- The tree of `1,234.50 + .5`. -/
def separatedSum : ExprTree :=
  .link (.head (.head (.head (.plain (.number "1,234.50" ⟨0, 8⟩)))))
    .add (Eq.refl Level.expr) ⟨9, 10⟩ (.head (.head (.plain (.number ".5" ⟨11, 13⟩))))

/-- Separators, and points with and without digits in front of them. -/
theorem literals_valid_sum : ("1,234.50 + .5").utf8ByteSize < 2 ^ 32 ∧
    parse "1,234.50 + .5" = .ok separatedSum ∧
    separatedSum.toExpr.nodes
      = [.num "1234.50" ⟨0, 8⟩, .num ".5" ⟨11, 13⟩, .binary .add ⟨0, 13⟩] ∧
    evaluateLiteral "1234.50" ⟨0, 8⟩ = .ok ⟨123450, 2, by decide⟩ ∧
    (∃ whole fraction, Spells "1234.50" false whole fraction ∧ 2 = fraction.length ∧
      (123450 : Int) = valueOf (whole ++ fraction)) ∧
    evaluateLiteral ".5" ⟨11, 13⟩ = .ok ⟨5, 1, by decide⟩ ∧
    (∃ whole fraction, Spells ".5" false whole fraction ∧ 1 = fraction.length ∧
      (5 : Int) = valueOf (whole ++ fraction)) ∧
    ∀ limits d e text, answerLine limits "1,234.50 + .5" = .error d →
      d.failure = .evaluation e → e.cause ≠ .invalidLiteral text := by
  have short : ("1,234.50 + .5").utf8ByteSize < 2 ^ 32 := by decide
  have parsed : parse "1,234.50 + .5" = .ok separatedSum := by rfl
  have nodes : separatedSum.toExpr.nodes
      = [.num "1234.50" ⟨0, 8⟩, .num ".5" ⟨11, 13⟩, .binary .add ⟨0, 13⟩] := by decide
  obtain ⟨valid, never⟩ := literals_valid short
  have spelled {text : String} {span : Span} {d : Decimal}
      (mem : .num text span ∈ separatedSum.toExpr.nodes)
      (value : evaluateLiteral text span = .ok d) : ∃ whole fraction,
        Spells text false whole fraction ∧ d.scale = fraction.length ∧
          d.significand = valueOf (whole ++ fraction) := by
    obtain ⟨d', whole, fraction, value', spells, -, scale, significand⟩ :=
      valid _ parsed text span mem
    obtain rfl := Except.ok.inj (value.symm.trans value')
    exact ⟨whole, fraction, spells, scale, significand⟩
  have amount : evaluateLiteral "1234.50" ⟨0, 8⟩ = .ok ⟨123450, 2, by decide⟩ := by decide
  have half : evaluateLiteral ".5" ⟨11, 13⟩ = .ok ⟨5, 1, by decide⟩ := by decide
  exact ⟨short, parsed, nodes, amount, spelled (by simp [nodes]) amount, half,
    spelled (by simp [nodes]) half, never⟩

end Calculator
