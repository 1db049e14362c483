import Calculator.Proofs.Transparency

/-!
# Lines — what is shown is read back

An expression as it is shown, with parentheses around every negation and operation, is a line, and
so is a result as it is printed.

* `Tree.depth_eq_of_tokens`: how deep a tree nests does not depend on where its lexemes stand.
* `Expr.scans_text`: the text of an expression is scanned as its tokens, wherever it stands.
* `Expr.exists_tree`: the tokens are derived by a tree that stands for the expression; a level of
  the expression is two levels of the tree, but for the lowest.
* `parse_text`: **the text of an expression is parsed to that expression**, if it is not too high.
* `answerLine_grouped`: **a result is its own result.**
-/

namespace Calculator

/-! ### Trees -/

namespace Tree

variable {r : Rule}

theorem depth_le_of_tokens {t t' : ExprTree} (same : tokensOf t'.lexemes = tokensOf t.lexemes) :
    t'.depth ≤ t.depth := by
  have read := parseChain_of_lexemes t 0 [] (by simp)
  have read' := parseChain_of_lexemes t' 0 [] (by simp)
  rw [List.append_nil, parseChain] at read read'
  obtain ⟨T, readT, exchanged⟩ := Reading.exchanged_run (S := t) (R := t) 0
    (.chain .expr (.refl .done)) same read
  rw [readT] at read'
  cases read'
  exact exchanged.depth_le (Nat.le_refl _)

/-- How deep a tree nests does not depend on where its lexemes stand. -/
theorem depth_eq_of_tokens {t t' : ExprTree} (same : tokensOf t'.lexemes = tokensOf t.lexemes) :
    t'.depth = t.depth :=
  Nat.le_antisymm (depth_le_of_tokens same) (depth_le_of_tokens same.symm)

/-- A tree may be put into parentheses. -/
theorem exists_parenthesized (t : Tree r) : ∃ t' : Tree .primary,
    tokensOf t'.lexemes = .lparen :: (tokensOf t.lexemes ++ [.rparen]) ∧ t'.toExpr = t.toExpr ∧
      t'.depth = t.depth + 1 := by
  obtain ⟨inner, lexemes, expr, depth⟩ := t.exists_loosened r.one_le_strength
  refine ⟨.group default inner default, ?_, expr, by rw [depth_group, depth]⟩
  rw [Tree.lexemes, lexemes, tokensOf, List.map_cons, List.map_append]
  rfl

/-- Primaries may be joined by any operator. -/
theorem exists_joined (a : Tree .primary) (op : Operator) (b : Tree .primary) :
    ∃ t : Tree (.chain op.level),
      tokensOf t.lexemes = tokensOf a.lexemes ++ op.token :: tokensOf b.lexemes ∧
      t.toExpr.unplaced = .binary a.toExpr.unplaced op b.toExpr.unplaced default ∧
      t.depth = max a.depth b.depth + 1 := by
  obtain ⟨left, lexemesL, exprL, depthL⟩ := a.exists_loosened op.level.operand.strength_le
  obtain ⟨right, lexemesR, exprR, depthR⟩ := b.exists_loosened op.level.operand.strength_le
  refine ⟨.link (.head left) op rfl default right, ?_, ?_, ?_⟩
  · rw [lexemes, lexemes, lexemesL, lexemesR, tokensOf, List.map_append]
    rfl
  · rw [toExpr, toExpr, Expr.unplaced, exprL, exprR]
  · show max left.depth right.depth + 1 = _
    rw [depthL, depthR]

end Tree

/-! ### Expressions as lines -/

namespace Expr

/-- The tokens of the text of an expression. -/
def tokens : Expr → List Token
  | .num text _ => [.number text]
  | .neg operand _ => .lparen :: .minus :: (operand.tokens ++ [.rparen])
  | .binary left op right _ => .lparen :: (left.tokens ++ op.token :: (right.tokens ++ [.rparen]))

variable {e : Expr}

/-- The text of an expression is scanned as its tokens. -/
theorem scans_text (plain : e.PlainNumerals) : Scans e.text.toList e.tokens := by
  induction e with
  | num text span =>
      obtain ⟨whole, fraction, spells⟩ := plain
      exact Scans.text (t := .number text) spells.isNumeral
  | neg operand span ih =>
      have text : (neg operand span).text.toList
          = '(' :: '-' :: (operand.text.toList ++ [')']) := by simp [Expr.text]
      rw [text]
      exact ((ih plain).close.cons_sign rfl fun _ => rfl).cons_sign rfl fun _ => rfl
  | binary left op right span ihl ihr =>
      have text : (binary left op right span).text.toList = '(' :: (left.text.toList
          ++ ' ' :: (op.token.text.toList ++ ' ' :: (right.text.toList ++ [')']))) := by
        simp [Expr.text]
      have behind := (ihr plain.2).close.cons_blank (c := ' ') rfl
      have sign := ((Scans.text op.readable_token).append (breaks_of_isBlank rfl _) behind)
      rw [text]
      exact ((ihl plain.1).append (breaks_of_isBlank rfl _) (sign.cons_blank rfl)).cons_sign rfl
        fun _ => rfl

/-- The tokens of an expression are derived by a tree that stands for it; a level of the expression
is two levels of the tree, but for the lowest. -/
theorem exists_tree (plain : e.PlainNumerals) : ∃ t : Tree .primary,
    tokensOf t.lexemes = e.tokens ∧ t.toExpr.unplaced = e.unplaced ∧
      t.depth + 1 = 2 * e.height := by
  induction e with
  | num text span =>
      obtain ⟨whole, fraction, spells⟩ := plain
      refine ⟨.number text default, rfl, ?_, rfl⟩
      rw [Tree.toExpr, withoutSeparators_of_spells spells]
      rfl
  | neg operand span ih =>
      obtain ⟨t, tokens, expr, depth⟩ := ih plain
      obtain ⟨t', tokens', expr', depth'⟩ := (Tree.negated default t).exists_parenthesized
      refine ⟨t', ?_, ?_, ?_⟩
      · rw [tokens', Tree.lexemes, tokensOf, List.map_cons, ← tokensOf, tokens]
        rfl
      · rw [expr', Tree.toExpr, unplaced, unplaced, expr]
      · rw [depth', Tree.depth_negated, height]
        omega
  | binary left op right span ihl ihr =>
      obtain ⟨a, tokensA, exprA, depthA⟩ := ihl plain.1
      obtain ⟨b, tokensB, exprB, depthB⟩ := ihr plain.2
      obtain ⟨t, tokensT, exprT, depthT⟩ := a.exists_joined op b
      obtain ⟨t', tokens', expr', depth'⟩ := t.exists_parenthesized
      refine ⟨t', ?_, ?_, ?_⟩
      · rw [tokens', tokensT, tokensA, tokensB, tokens, List.append_assoc, List.cons_append]
      · rw [expr', exprT, exprA, exprB, unplaced]
      · rw [depth', depthT, height]
        omega

/-- The line of an expression is scanned as what a tree derives that stands for it. -/
theorem exists_scanned (plain : e.PlainNumerals) : ∃ t : ExprTree, scan e.text = .ok t.lexemes ∧
    t.toExpr.unplaced = e.unplaced ∧ t.depth = 2 * e.height - 1 := by
  obtain ⟨xs, scanned, tokens⟩ := scans_text plain 0
  obtain ⟨t, tokens', expr, depth⟩ := exists_tree plain
  obtain ⟨t₁, lexemes₁, expr₁, depth₁⟩ := t.exists_loosened Rule.primary.one_le_strength
  obtain ⟨t₂, rfl, expr₂⟩ := t₁.yields xs (by rw [tokens, lexemes₁, tokens'])
  have same : tokensOf t₂.lexemes = tokensOf t₁.lexemes := by rw [tokens, lexemes₁, tokens']
  refine ⟨t₂, scanned, by rw [expr₂, expr₁, expr], ?_⟩
  rw [Tree.depth_eq_of_tokens same, depth₁]
  omega

/-- Expressions with one text are the same, up to the places of their parts. -/
theorem text_injective {e' : Expr} (plain : e.PlainNumerals) (plain' : e'.PlainNumerals)
    (same : e'.text = e.text) : e'.unplaced = e.unplaced := by
  obtain ⟨t, scanned, expr, -⟩ := exists_scanned plain
  obtain ⟨t', scanned', expr', -⟩ := exists_scanned plain'
  rw [same, scanned] at scanned'
  have derives : Derives t'.lexemes t := Except.ok.inj scanned' ▸ t.derives
  rw [← expr, ← expr', derives.unique t'.derives]

end Expr

/-- **What is shown is read back.**  The text of an expression is parsed if and only if twice its
height less one is within the limit of nesting, and then to a tree that stands for the expression,
up to the places of its parts, and has its value, or none for the same cause; if it is not parsed,
it nests too deep.  No other expression has this text, and as a line it is answered with the value
of the expression. -/
theorem parse_text (e : Expr) (plain : e.PlainNumerals) :
    ((∃ t, parse e.text = .ok t) ↔ 2 * e.height - 1 ≤ maxDepth) ∧
      (∀ t, parse e.text = .ok t → t.toExpr.unplaced = e.unplaced ∧
        ∀ limits, (t.toExpr.evaluate limits).mapError EvalError.cause
          = (e.evaluate limits).mapError EvalError.cause) ∧
      (∀ fault, parse e.text = .error fault →
        ∃ column, fault = ⟨.tooDeep maxDepth, column, []⟩) ∧
      (∀ e' : Expr, e'.PlainNumerals → e'.text = e.text → e'.unplaced = e.unplaced) ∧
      (2 * e.height - 1 ≤ maxDepth → ∀ limits r, answerLine limits e.text = .ok r ↔
        ∃ d, e.evaluate limits = .ok d ∧ r = d.grouped) := by
  obtain ⟨t, scanned, expr, depth⟩ := e.exists_scanned plain
  have parsed : parse e.text = parseLexemes t.lexemes e.text.utf8ByteSize := by rw [parse, scanned]
  rw [parsed, ← depth]
  rcases Nat.lt_or_ge maxDepth t.depth with deep | flat
  · obtain ⟨column, refused⟩ := parseLexemes_of_deep e.text.utf8ByteSize deep
    rw [refused]
    refine ⟨⟨?_, fun flat => absurd deep (Nat.not_lt.mpr flat)⟩, ?_, ?_,
      fun e' plain' => Expr.text_injective plain plain',
      fun flat => absurd deep (Nat.not_lt.mpr flat)⟩
    · rintro ⟨_, ⟨⟩⟩
    · rintro _ ⟨⟩
    · rintro _ ⟨⟩
      exact ⟨column, rfl⟩
  · rw [parseLexemes_of_lexemes t _ flat]
    refine ⟨⟨fun _ => flat, fun _ => ⟨t, rfl⟩⟩, ?_, ?_,
      fun e' plain' => Expr.text_injective plain plain', fun _ limits r => ?_⟩
    · rintro _ ⟨⟩
      exact ⟨expr, fun limits => Expr.evaluate_cause expr⟩
    · rintro _ ⟨⟩
    · rw [answerLine_of_scan scanned flat]
      constructor
      · intro h
        split at h
        · cases h
        · rename_i d evaluated
          cases h
          exact ⟨d, Expr.evaluate_moved expr evaluated, rfl⟩
      · rintro ⟨d, evaluated, rfl⟩
        rw [Expr.evaluate_moved expr.symm evaluated]

example : powerSample.text = "(-(((2 ** 3) ** .5) - 1))" := by decide

theorem parse_text_powerSample : powerSample.PlainNumerals ∧ 2 * powerSample.height - 1 = 9 ∧
    ∃ t, parse powerSample.text = .ok t ∧ t.toExpr.unplaced = powerSample.unplaced := by
  have read := parse_text powerSample plainNumerals_powerSample
  obtain ⟨t, parsed⟩ := read.1.mpr (by decide)
  exact ⟨plainNumerals_powerSample, rfl, t, parsed, (read.2.1 t parsed).1⟩

/-! ### Results as lines -/

/-- **A result is its own result.**  Whatever the limits, a decimal as it is printed is a line of
one numeral, with a minus sign in front of it or none; the line is parsed and evaluated to the
normal form of the decimal, and answered with the line itself. -/
theorem answerLine_grouped (limits : Limits) (d : Decimal) :
    ∃ t : ExprTree, scan d.grouped = .ok t.lexemes ∧ tokensOf t.lexemes = d.tokens ∧
      parse d.grouped = .ok t ∧ t.toExpr.evaluate limits = .ok d.normalForm ∧
      answerLine limits d.grouped = .ok d.grouped := by
  obtain ⟨xs, scanned, tokens⟩ := d.scans_grouped 0
  obtain ⟨t, rfl, depth, evaluated⟩ := d.exists_tree limits tokens
  have flat : t.depth ≤ maxDepth := by
    rw [depth]
    split <;> decide
  refine ⟨t, scanned, tokens, ?_, evaluated, ?_⟩
  · rw [parse, scan, scanned]
    exact parseLexemes_of_lexemes t _ flat
  · rw [answerLine_of_scan scanned flat, evaluated]
    exact congrArg Except.ok (Decimal.grouped_eq_of_value d.value_normalForm)

end Calculator
