import Calculator.Proofs.Exchange
import Calculator.Proofs.Lines
import Calculator.Proofs.Printed

/-!
# Lines — a result in place of its expression

A part of a line between parentheses may be replaced by its result, as it is printed: the line has
the same result, unless the scale of a quotient overflows on the way.

* `exists_of_answerLine`, `answerLine_of_scan`: a line is answered if it is scanned, if a tree
  derives its tokens, and if that tree has a value.
* `scanFrom_group`: what is between parentheses is scanned apart.
* `Decimal.exists_tree`: a result is read as a tree of depth one, or two if it is negative.
* `answerLine_substitute`: **results are transparent**: nothing is lost by printing them.
-/

namespace Calculator

variable {limits : Limits}

/-! ### Lines and trees -/

/-- A line is answered with the value of a tree that derives it. -/
theorem answerLine_of_scan {text : String} {t : ExprTree} (scanned : scan text = .ok t.lexemes)
    (flat : t.depth ≤ maxDepth) : answerLine limits text
      = match t.toExpr.evaluate limits with
        | .error e => .error (.ofText (trimLineEnd text) (.evaluation e))
        | .ok d => .ok d.grouped := by
  have parsed : parse (trimLineEnd text) = .ok t :=
    parse_eq_ok_iff.mpr ⟨(scan_trimLineEnd text).trans scanned, flat⟩
  cases evaluated : t.toExpr.evaluate limits <;> simp only [answerLine, parsed, evaluated]

theorem exists_of_answerLine {text r : String} (h : answerLine limits text = .ok r) :
    ∃ (t : ExprTree) (d : Decimal), scan text = .ok t.lexemes ∧ t.depth ≤ maxDepth ∧
      t.toExpr.evaluate limits = .ok d ∧ r = d.grouped := by
  rw [answerLine] at h
  split at h
  · cases h
  · rename_i t parsed
    split at h
    · cases h
    · rename_i d evaluated
      cases h
      obtain ⟨scanned, flat⟩ := scan_of_parse parsed
      rw [scan_trimLineEnd] at scanned
      exact ⟨t, d, scanned, flat, evaluated, rfl⟩

/-! ### Groups in a line -/

/-- What is between parentheses is scanned apart from what is around it. -/
theorem scanFrom_group {pre s post : List Char} {offset : Nat} {xs : List Lexeme} :
    scanFrom (pre ++ '(' :: (s ++ ')' :: post)) offset 0 [] = .ok xs ↔
      ∃ before inner after, scanFrom pre offset 0 [] = .ok before ∧
        scanFrom s (offset + pre.length + 1) 0 [] = .ok inner ∧
        scanFrom post (offset + pre.length + 1 + s.length + 1) 0 [] = .ok after ∧
        xs = before ++ ⟨.lparen, offset + pre.length, offset + pre.length + 1⟩ ::
          (inner ++ ⟨.rparen, offset + pre.length + 1 + s.length,
            offset + pre.length + 1 + s.length + 1⟩ :: after) := by
  have opens (rest : List Char) : Breaks ('(' :: rest) := by rintro _ ⟨⟩; decide
  have closes (rest : List Char) : Breaks (')' :: rest) := by rintro _ ⟨⟩; decide
  have lparen (rest : List Char) : Token.read? '(' rest = some (.lparen, 0) := rfl
  have rparen (rest : List Char) : Token.read? ')' rest = some (.rparen, 0) := rfl
  rw [scanFrom_append pre (opens _), scanFrom_token rfl (lparen _), List.drop_zero,
    Nat.add_zero, scanFrom_append s (closes _), scanFrom_token rfl (rparen _), List.drop_zero,
    Nat.add_zero]
  cases scanFrom pre offset 0 [] with
  | error e => simp [Except.bind]
  | ok before =>
      cases scanFrom s (offset + pre.length + 1) 0 [] with
      | error e => simp [Except.bind, Except.map]
      | ok inner =>
          cases scanFrom post (offset + pre.length + 1 + s.length + 1) 0 [] with
          | error e => simp [Except.bind, Except.map]
          | ok after => simp [Except.bind, Except.map, eq_comm]

/-! ### Trees of results -/

/-- A result is read as a tree, of depth one or, if it is negative, two, that evaluates to its
normal form. -/
theorem Decimal.exists_tree (limits : Limits) {d : Decimal} {xs : List Lexeme}
    (h : tokensOf xs = d.tokens) : ∃ t : ExprTree, t.lexemes = xs ∧
      t.depth = (if d.isNegative then 2 else 1) ∧ t.toExpr.evaluate limits = .ok d.normalForm := by
  have sign : d.isNegative ↔ d.normalForm.isNegative := by
    rw [isNegative_iff, isNegative_iff, value_normalForm]
  have numeral (span : Span) : evaluateLiteral (withoutSeparators d.numeral) span
      = .ok d.normalForm.unsigned := by
    rw [evaluateLiteral, d.ofText_numeral]
  rw [tokens] at h
  by_cases negative : d.isNegative
  · rw [if_pos negative] at h ⊢
    obtain ⟨x, xs, rfl, hx, h⟩ := List.map_eq_cons_iff.mp h
    obtain ⟨y, rfl, hy⟩ := List.map_eq_singleton_iff.mp h
    obtain ⟨token, minus⟩ := x
    obtain ⟨token', span⟩ := y
    obtain rfl : token = .minus := hx
    obtain rfl : token' = .number d.numeral := hy
    refine ⟨.head (l := .expr) (.head (l := .term) (.head (l := .factor)
      (.negated minus (.number d.numeral span)))), rfl, rfl, ?_⟩
    simp only [Tree.toExpr, Expr.evaluate, numeral, Except.map, neg_unsigned (sign.mp negative)]
  · rw [if_neg negative] at h ⊢
    obtain ⟨x, rfl, hx⟩ := List.map_eq_singleton_iff.mp h
    obtain ⟨token, span⟩ := x
    obtain rfl : token = .number d.numeral := hx
    refine ⟨.head (l := .expr) (.head (l := .term) (.head (l := .factor)
      (.plain (.number d.numeral span)))), rfl, rfl, ?_⟩
    simp only [Tree.toExpr, Expr.evaluate, numeral, unsigned_eq (mt sign.mpr negative)]

/-- A tree of depth one is a number. -/
theorem Tree.exists_number {r : Rule} {t : Tree r} (h : t.depth ≤ 1) : ∃ text span,
    t.lexemes = [⟨.number text, span⟩] ∧ t.toExpr = .num (withoutSeparators text) span := by
  induction t with
  | number text span => exact ⟨text, span, rfl, rfl⟩
  | group opening inner closing =>
      have := inner.one_le_depth
      rw [depth_group] at h
      omega
  | plain operand ih => exact ih (by rwa [depth_plain] at h)
  | negated minus operand =>
      have := operand.one_le_depth
      rw [depth_negated] at h
      omega
  | head operand ih => exact ih (by rwa [depth_head] at h)
  | link left op binds sign right =>
      have := right.one_le_depth
      rw [depth_link] at h
      omega

/-- The number that a numeral of a line spells is not negative. -/
theorem isNegative_numeral {text : String} {c : Char} {rest : List Char}
    (head : text.toList = c :: rest) (hc : c.isDigit ∨ c = '.') {d : Decimal}
    (h : Decimal.ofText (withoutSeparators text) = .ok d) : d.isNegative = false := by
  obtain ⟨negative, whole, fraction, ⟨text_eq, -, -⟩, -, significand⟩ :=
    Decimal.ofText_eq_ok_iff.mp h
  rcases negative with - | -
  · rw [Decimal.isNegative, significand]
    simp
  · have kept : c ≠ ',' := by
      rintro rfl
      exact absurd hc (by decide)
    have chars : (withoutSeparators text).toList = c :: rest.filter (· ≠ ',') := by
      rw [withoutSeparators, String.toList_ofList, head,
        List.filter_cons_of_pos (by simpa using kept)]
    rw [text_eq, toList_assemble] at chars
    obtain ⟨rfl, -⟩ := List.cons.inj chars
    exact absurd hc (by decide)

/-- A tree of a line nests at least as deep as its result. -/
theorem depth_result_le {t : ExprTree} {cs : List Char} {offset : Nat}
    (scanned : scanFrom cs offset 0 [] = .ok t.lexemes) {d : Decimal}
    (evaluated : t.toExpr.evaluate limits = .ok d) : (if d.isNegative then 2 else 1) ≤ t.depth := by
  have one := t.one_le_depth
  by_cases negative : d.isNegative
  · rw [if_pos negative]
    by_contra flat
    obtain ⟨text, span, lexemes, number⟩ := Tree.exists_number (Nat.le_of_lt_succ (not_le.mp flat))
    have mem : ⟨.number text, span⟩ ∈ t.lexemes := by
      rw [lexemes]
      exact List.mem_singleton_self _
    obtain ⟨c, rest, head, hc⟩ := head_scanFrom scanned mem
    rw [number, Expr.evaluate, evaluateLiteral] at evaluated
    split at evaluated
    · rename_i d' ht
      cases evaluated
      rw [isNegative_numeral head hc ht] at negative
      cases negative
    · cases evaluated
  · rwa [if_neg negative]

/-! ### Transparency -/

/-- **Results are transparent.**  If a line has a result, so has the line with the result of a part
in parentheses in its place, as it is printed, and it is the same; or else the scale of a quotient
overflows.  The line nests no deeper and has no larger estimates and no other exponents. -/
theorem answerLine_substitute {limits : Limits} {pre s post r v : String}
    (inner : answerLine limits s = .ok r)
    (outer : answerLine limits (pre ++ "(" ++ s ++ ")" ++ post) = .ok v) :
    answerLine limits (pre ++ "(" ++ r ++ ")" ++ post) = .ok v ∨
      ∃ d e, answerLine limits (pre ++ "(" ++ r ++ ")" ++ post) = .error d ∧
        d.failure = .evaluation e ∧ e.cause = .scaleOverflow := by
  have toList (text : String) : (pre ++ "(" ++ text ++ ")" ++ post).toList
      = pre.toList ++ '(' :: (text.toList ++ ')' :: post.toList) := by simp
  obtain ⟨t, d, scanned, -, evaluated, rfl⟩ := exists_of_answerLine inner
  obtain ⟨T, D, scannedT, flat, evaluatedT, rfl⟩ := exists_of_answerLine outer
  rw [scan, toList] at scannedT
  obtain ⟨before, xs, after, hb, hi, ha, whole⟩ := scanFrom_group.mp scannedT
  -- between the parentheses stands a tree that evaluates as `s` on its own
  obtain ⟨ys, hy, tokens⟩ := scanFrom_tokens scanned (0 + pre.toList.length + 1)
  obtain rfl : xs = ys := Except.ok.inj (hi.symm.trans hy)
  obtain ⟨S, rfl, moved⟩ := t.yields xs tokens
  have evaluatedS := Expr.evaluate_moved moved.symm evaluated
  -- and in the other line, a tree of the result
  obtain ⟨zs, scannedR, tokensR⟩ := d.scans_grouped (0 + pre.toList.length + 1)
  obtain ⟨R, rfl, depthR, evaluatedR⟩ := d.exists_tree limits tokensR
  obtain ⟨after', ha', tokens'⟩ := scanFrom_tokens ha
    (0 + pre.toList.length + 1 + d.grouped.toList.length + 1)
  obtain ⟨T', exchanged, lexemes⟩ := exists_exchanged (R := R) tokens' whole
  have flat' : T'.depth ≤ maxDepth :=
    Nat.le_trans (exchanged.depth_le (depthR ▸ depth_result_le hi evaluatedS)) flat
  have follows : Follows (T'.toExpr.evaluate limits) (T.toExpr.evaluate limits) := by
    refine exchanged.follows ?_
    rw [evaluatedR, evaluatedS]
    exact d.shortens_normalForm
  have scanned' : scan (pre ++ "(" ++ d.grouped ++ ")" ++ post) = .ok T'.lexemes := by
    rw [scan, toList]
    exact scanFrom_group.mpr ⟨before, R.lexemes, after', hb, scannedR, ha', lexemes⟩
  rw [answerLine_of_scan scanned' flat']
  rw [evaluatedT] at follows
  cases hT : T'.toExpr.evaluate limits with
  | ok D' =>
      rw [hT] at follows
      exact .inl (congrArg Except.ok (Decimal.grouped_eq_of_value follows.value_eq))
  | error e =>
      rw [hT] at follows
      exact .inr ⟨_, e, rfl, rfl, follows⟩

/-- A product in a line is replaced by its result, which has no zero behind its point. -/
theorem answerLine_product : answerLine .standard "1000 * 1.50" = .ok "1,500" ∧
    answerLine .standard ("2 * " ++ "(" ++ "1000 * 1.50" ++ ")" ++ " / 3") = .ok "1,000" ∧
    answerLine .standard ("2 * " ++ "(" ++ "1,500" ++ ")" ++ " / 3") = .ok "1,000" := by
  have inner : answerLine .standard "1000 * 1.50" = .ok "1,500" := by decide
  have outer : answerLine .standard ("2 * " ++ "(" ++ "1000 * 1.50" ++ ")" ++ " / 3")
      = .ok "1,000" := by decide
  refine ⟨inner, outer, ?_⟩
  rcases answerLine_substitute inner outer with same | ⟨d, e, failed, -, -⟩
  · exact same
  · -- the quotient is one of small numbers
    have answered : (answerLine .standard
        ("2 * " ++ "(" ++ "1,500" ++ ")" ++ " / 3")).isOk := by decide
    rw [failed] at answered
    cases answered

end Calculator
