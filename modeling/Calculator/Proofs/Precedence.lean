import Calculator.Proofs.Grammar
import Calculator.Proofs.Numerals
import Calculator.Tree.Expr

/-!
# Expressions — precedence

An expression is written with the parentheses that precedence and left association ask for, and
with no others: a left operand is put into parentheses if it binds weaker than its operator, a right
operand if it does not bind stronger, and what a minus sign is in front of if it is not a numeral.
Tokens have a blank between them.

* `Yields`: a tree of a rule stands for an expression, wherever its tokens stand; `Tree.yields`: as
  every tree does for its own.
* `yields_minimalTokens`: the tokens of an expression are derived at every level that is no tighter
  than the expression binds.
* `parse_minimalText`: **what is written is parsed to the expression**, unless it nests too deep.
-/

namespace Calculator

namespace Expr

/-- The expression without the places of its parts. -/
def unplaced : Expr → Expr
  | .num text _ => .num text default
  | .neg operand _ => .neg operand.unplaced default
  | .binary left op right _ => .binary left.unplaced op right.unplaced default

end Expr

/-! ### Binding strengths -/

/-- How tightly a chain of the level binds. -/
def Level.strength : Level → Nat
  | .expr => 1
  | .term => 2
  | .factor => 3

/-- How tightly what a rule derives binds. -/
def Rule.strength : Rule → Nat
  | .chain l => l.strength
  | .base => 4
  | .primary => 5

theorem Rule.strength_le (r : Rule) : r.strength ≤ Rule.primary.strength := by
  rcases r with (- | - | -) | - | - <;> decide

theorem Rule.one_le_strength (r : Rule) : (Rule.chain .expr).strength ≤ r.strength := by
  rcases r with (- | - | -) | - | - <;> decide

theorem Rule.eq_of_strength {r r' : Rule} (h : r.strength = r'.strength) : r = r' := by
  rcases r with (- | - | -) | - | - <;> rcases r' with (- | - | -) | - | - <;>
    first
      | rfl
      | exact absurd h (by decide)

theorem Level.strength_operand (l : Level) : l.operand.strength = l.strength + 1 := by
  cases l <;> rfl

/-- How tightly an operator binds. -/
def Operator.strength (op : Operator) : Nat := op.level.strength

/-- How tightly an expression binds: like its operator, or like a minus sign. -/
def Expr.strength : Expr → Nat
  | .num _ _ => 4
  | .neg _ _ => 4
  | .binary _ op _ _ => op.strength

/-- Whether the expression is a numeral. -/
def Expr.isLiteral : Expr → Bool
  | .num _ _ => true
  | _ => false

/-! ### Writing -/

/-- The tokens, in parentheses if asked for. -/
def parenthesized (asked : Bool) (ts : List Token) : List Token :=
  if asked then .lparen :: ts ++ [.rparen] else ts

/-- The tokens of an expression with the fewest parentheses. -/
def Expr.minimalTokens : Expr → List Token
  | .num text _ => [.number text]
  | .neg operand _ => .minus :: parenthesized (!operand.isLiteral) operand.minimalTokens
  | .binary left op right _ =>
      parenthesized (left.strength < op.strength) left.minimalTokens
        ++ op.token :: parenthesized (right.strength ≤ op.strength) right.minimalTokens

/-- The expression with the fewest parentheses and single blanks between its tokens. -/
def Expr.minimalText (e : Expr) : String := " ".intercalate (e.minimalTokens.map Token.text)

/-- Every numeral of the expression is digits, with digits behind a point or without. -/
def Expr.PlainNumerals : Expr → Prop
  | .num text _ => ∃ whole fraction, Spells text false whole fraction
  | .neg operand _ => operand.PlainNumerals
  | .binary left _ right _ => left.PlainNumerals ∧ right.PlainNumerals

theorem withoutSeparators_of_spells {text : String} {whole fraction : List Char}
    (h : Spells text false whole fraction) : withoutSeparators text = text := by
  obtain ⟨rfl, digits, -⟩ := h
  have hw : ∀ c ∈ whole, c.isDigit := fun c hc => digits c (List.mem_append_left _ hc)
  have hf : ∀ c ∈ fraction, c.isDigit := fun c hc => digits c (List.mem_append_right _ hc)
  rw [← String.toList_inj, withoutSeparators, String.toList_ofList, toList_assemble,
    List.filter_append, List.filter_append, filter_digits hw, filter_point hf]
  rfl

/-! ### Trees for expressions -/

/-- A tree may stand for a rule that binds looser: the rules between them add nothing. -/
theorem Tree.exists_loosened {r r' : Rule} (h : r'.strength ≤ r.strength) (t : Tree r) :
    ∃ t' : Tree r', t'.lexemes = t.lexemes ∧ t'.toExpr = t.toExpr ∧ t'.depth = t.depth := by
  obtain ⟨n, hn⟩ := Nat.exists_eq_add_of_le h
  clear h
  -- one rule at a time, from the one that binds tighter
  induction n generalizing r' with
  | zero =>
      obtain rfl := Rule.eq_of_strength hn
      exact ⟨t, rfl, rfl, rfl⟩
  | succ n ih =>
      cases r' with
      | chain l =>
          obtain ⟨t', lexemes, expr, depth⟩ :=
            @ih l.operand (by rw [l.strength_operand, hn, Rule.strength]; omega)
          exact ⟨.head t', lexemes, expr, depth⟩
      | base =>
          obtain ⟨t', lexemes, expr, depth⟩ :=
            @ih .primary (by rw [hn, Rule.strength, Rule.strength]; omega)
          exact ⟨.plain t', lexemes, expr, (depth_plain t').trans depth⟩
      | primary =>
          have le := r.strength_le
          rw [hn, Rule.strength] at le
          omega

/-- Wherever the tokens stand, a tree of the rule derives them and stands for the expression. -/
def Yields (r : Rule) (ts : List Token) (e : Expr) : Prop :=
  ∀ xs, tokensOf xs = ts → ∃ t : Tree r, t.lexemes = xs ∧ t.toExpr.unplaced = e.unplaced

namespace Yields

theorem number (text : String) (span : Span) :
    Yields .primary [.number text] (.num (withoutSeparators text) span) := by
  intro xs h
  obtain ⟨x, rfl, hx⟩ := List.map_eq_singleton_iff.mp h
  obtain ⟨token, place⟩ := x
  obtain rfl : token = .number text := hx
  exact ⟨.number text place, rfl, rfl⟩

theorem group {ts : List Token} {e : Expr} (y : Yields (.chain .expr) ts e) :
    Yields .primary (.lparen :: ts ++ [.rparen]) e := by
  intro xs h
  obtain ⟨ys, zs, rfl, hy, hz⟩ := List.map_eq_append_iff.mp h
  obtain ⟨x, ys, rfl, hx, hy⟩ := List.map_eq_cons_iff.mp hy
  obtain ⟨z, rfl, hz'⟩ := List.map_eq_singleton_iff.mp hz
  obtain ⟨t, rfl, ht⟩ := y ys hy
  obtain ⟨token, opening⟩ := x
  obtain ⟨token', closing⟩ := z
  obtain rfl : token = .lparen := hx
  obtain rfl : token' = .rparen := hz'
  exact ⟨.group opening t closing, rfl, ht⟩

theorem base {ts : List Token} {e : Expr} (y : Yields .primary ts e) : Yields .base ts e := by
  intro xs h
  obtain ⟨t, rfl, ht⟩ := y xs h
  exact ⟨.plain t, rfl, ht⟩

theorem negated {ts : List Token} {e : Expr} {span : Span} (y : Yields .primary ts e) :
    Yields .base (.minus :: ts) (.neg e span) := by
  intro xs h
  obtain ⟨x, xs, rfl, hx, h⟩ := List.map_eq_cons_iff.mp h
  obtain ⟨t, rfl, ht⟩ := y xs h
  obtain ⟨token, minus⟩ := x
  obtain rfl : token = .minus := hx
  refine ⟨.negated minus t, rfl, ?_⟩
  rw [Tree.toExpr, Expr.unplaced, Expr.unplaced, ht]

theorem head {l : Level} {ts : List Token} {e : Expr} (y : Yields l.operand ts e) :
    Yields (.chain l) ts e := by
  intro xs h
  obtain ⟨t, rfl, ht⟩ := y xs h
  exact ⟨.head t, rfl, ht⟩

theorem link {op : Operator} {ts us : List Token} {left right : Expr} {span : Span}
    (yl : Yields (.chain op.level) ts left) (yr : Yields op.level.operand us right) :
    Yields (.chain op.level) (ts ++ op.token :: us) (.binary left op right span) := by
  intro xs h
  obtain ⟨ys, zs, rfl, hy, hz⟩ := List.map_eq_append_iff.mp h
  obtain ⟨z, zs, rfl, hs, hz⟩ := List.map_eq_cons_iff.mp hz
  obtain ⟨t, rfl, ht⟩ := yl ys hy
  obtain ⟨u, rfl, hu⟩ := yr zs hz
  obtain ⟨token, sign⟩ := z
  obtain rfl : token = op.token := hs
  refine ⟨.link t op rfl sign u, rfl, ?_⟩
  rw [Tree.toExpr, Expr.unplaced, Expr.unplaced, ht, hu]

/-- The tokens of a rule that binds tighter are tokens of the rule. -/
theorem loosen {r r' : Rule} (h : r'.strength ≤ r.strength) {ts : List Token} {e : Expr}
    (y : Yields r ts e) : Yields r' ts e := by
  intro xs hx
  obtain ⟨t, rfl, ht⟩ := y xs hx
  obtain ⟨t', lexemes, expr, -⟩ := t.exists_loosened h
  exact ⟨t', lexemes, by rw [expr, ht]⟩

/-- What is put into parentheses, if asked for, may stand wherever a primary may. -/
theorem parenthesized {r : Rule} {asked : Bool} {ts : List Token} {e : Expr}
    (y : asked = false → Yields r ts e) (all : Yields (.chain .expr) ts e) :
    Yields r (Calculator.parenthesized asked ts) e := by
  cases asked with
  | false => exact y rfl
  | true => exact all.group.loosen r.strength_le

end Yields

/-- A tree has another wherever its tokens stand, and both stand for one expression. -/
theorem Tree.yields {r : Rule} (t : Tree r) : Yields r (tokensOf t.lexemes) t.toExpr := by
  induction t with
  | number text span => exact .number text span
  | group opening inner closing ih =>
      have tokens : tokensOf (Tree.group opening inner closing).lexemes
          = .lparen :: tokensOf inner.lexemes ++ [.rparen] := by simp [lexemes, tokensOf]
      rw [tokens]
      exact ih.group
  | plain operand ih => exact ih.base
  | negated minus operand ih => exact ih.negated
  | head operand ih => exact ih.head
  | link left op binds sign right ihl ihr =>
      subst binds
      have tokens : tokensOf (Tree.link left op rfl sign right).lexemes
          = tokensOf left.lexemes ++ op.token :: tokensOf right.lexemes := by
        simp [lexemes, tokensOf]
      rw [tokens]
      exact .link ihl ihr

theorem yields_numeral {text : String} {whole fraction : List Char}
    (spells : Spells text false whole fraction) (span : Span) :
    Yields .primary [.number text] (.num text span) := by
  have yields := Yields.number text span
  rwa [withoutSeparators_of_spells spells] at yields

theorem Expr.one_le_strength (e : Expr) : (Rule.chain .expr).strength ≤ e.strength := by
  cases e with
  | binary left op right span =>
      show 1 ≤ op.strength
      cases op <;> decide
  | _ => exact Nat.le_add_left 1 3

/-- The tokens of an expression are derived at every level no tighter than the expression binds. -/
theorem yields_minimalTokens {e : Expr} (plain : e.PlainNumerals) {r : Rule}
    (h : r.strength ≤ e.strength) : Yields r e.minimalTokens e := by
  induction e generalizing r with
  | num text span =>
      obtain ⟨whole, fraction, spells⟩ := plain
      exact (yields_numeral spells span).loosen (Nat.le_succ_of_le h)
  | neg operand span ih =>
      have primary : Yields .primary (parenthesized (!operand.isLiteral) operand.minimalTokens)
          operand := by
        refine .parenthesized (fun literal => ?_) (ih plain operand.one_le_strength)
        cases operand with
        | num text place =>
            obtain ⟨whole, fraction, spells⟩ := plain
            exact yields_numeral spells place
        | neg => cases literal
        | binary => cases literal
      exact (Yields.negated primary).loosen h
  | binary left op right span ihl ihr =>
      have yl : Yields (.chain op.level)
          (parenthesized (left.strength < op.strength) left.minimalTokens) left := by
        refine .parenthesized (fun stronger => ihl plain.1 ?_) (ihl plain.1 left.one_le_strength)
        exact Nat.not_lt.mp (of_decide_eq_false stronger)
      have yr : Yields op.level.operand
          (parenthesized (right.strength ≤ op.strength) right.minimalTokens) right := by
        refine .parenthesized (fun stronger => ihr plain.2 ?_) (ihr plain.2 right.one_le_strength)
        rw [op.level.strength_operand]
        exact Nat.not_le.mp (of_decide_eq_false stronger)
      exact (Yields.link yl yr).loosen h

/-! ### Reading what is written -/

theorem mem_parenthesized {asked : Bool} {ts : List Token} {t : Token}
    (h : t ∈ parenthesized asked ts) : t = .lparen ∨ t = .rparen ∨ t ∈ ts := by
  cases asked with
  | false => exact .inr (.inr h)
  | true =>
      simp only [parenthesized, if_true, List.cons_append, List.mem_cons, List.mem_append,
        List.not_mem_nil, or_false] at h
      rcases h with h | h | h
      · exact .inl h
      · exact .inr (.inr h)
      · exact .inr (.inl h)

theorem Operator.readable_token (op : Operator) : op.token.Readable := by cases op <;> trivial

theorem readable_minimalTokens {e : Expr} (plain : e.PlainNumerals) :
    ∀ t ∈ e.minimalTokens, t.Readable := by
  induction e with
  | num text span =>
      obtain ⟨whole, fraction, spells⟩ := plain
      intro t ht
      obtain rfl : t = .number text := List.mem_singleton.mp ht
      exact spells.isNumeral
  | neg operand span ih =>
      intro t ht
      rcases List.mem_cons.mp ht with rfl | ht
      · trivial
      · rcases mem_parenthesized ht with rfl | rfl | ht
        · trivial
        · trivial
        · exact ih plain t ht
  | binary left op right span ihl ihr =>
      intro t ht
      rcases List.mem_append.mp ht with ht | ht
      · rcases mem_parenthesized ht with rfl | rfl | ht
        · trivial
        · trivial
        · exact ihl plain.1 t ht
      · rcases List.mem_cons.mp ht with rfl | ht
        · exact op.readable_token
        · rcases mem_parenthesized ht with rfl | rfl | ht
          · trivial
          · trivial
          · exact ihr plain.2 t ht

/-- **Precedence and left association.**  An expression written with the fewest parentheses is
parsed to a tree that stands for it, up to the places of its parts, or it nests too deep and is
refused for that. -/
theorem parse_minimalText (e : Expr) (plain : e.PlainNumerals) :
    (∃ column, parse e.minimalText = .error ⟨.tooDeep maxDepth, column, []⟩) ∨
      ∃ t : ExprTree, parse e.minimalText = .ok t ∧ t.toExpr.unplaced = e.unplaced := by
  obtain ⟨xs, hx, tokens⟩ := scans_intercalate (readable_minimalTokens plain) 0
  obtain ⟨t, rfl, ht⟩ := yields_minimalTokens plain e.one_le_strength xs tokens
  have scanned : scan e.minimalText = .ok t.lexemes := hx
  rw [parse, scanned]
  rcases Nat.lt_or_ge maxDepth t.depth with deep | flat
  · exact .inl (parseLexemes_of_deep _ deep)
  · exact .inr ⟨t, parseLexemes_of_lexemes t _ flat, ht⟩

/-- Two powers and a difference, written `-( 2 ** 3 ** .5 - 1 )`. -/
def powerSample : Expr :=
  .neg (.binary (.binary (.binary (.num "2" ⟨0, 1⟩) .pow (.num "3" ⟨2, 3⟩) ⟨0, 3⟩) .pow
    (.num ".5" ⟨4, 6⟩) ⟨0, 6⟩) .sub (.num "1" ⟨7, 8⟩) ⟨0, 8⟩) ⟨0, 8⟩

theorem plainNumerals_powerSample : powerSample.PlainNumerals :=
  ⟨⟨⟨⟨['2'], [], rfl, by simp, by simp⟩, ⟨['3'], [], rfl, by simp, by simp⟩⟩,
    ⟨[], ['5'], rfl, by simp, by simp⟩⟩, ⟨['1'], [], rfl, by simp, by simp⟩⟩

example : powerSample.minimalText = "- ( 2 ** 3 ** .5 - 1 )" := by decide

/-- The tree of `- ( 2 ** 3 ** .5 - 1 )`. -/
def powerSampleTree : ExprTree :=
  .head (.head (.head (.negated ⟨0, 1⟩ (.group ⟨2, 3⟩
    (.link
      (.head (.head (.link
        (.link (.head (.plain (.number "2" ⟨4, 5⟩))) .pow (Eq.refl Level.factor) ⟨6, 8⟩
          (.plain (.number "3" ⟨9, 10⟩)))
        .pow (Eq.refl Level.factor) ⟨11, 13⟩ (.plain (.number ".5" ⟨14, 16⟩)))))
      .sub (Eq.refl Level.expr) ⟨17, 18⟩ (.head (.head (.plain (.number "1" ⟨19, 20⟩)))))
    ⟨21, 22⟩))))

/-- The powers are read from the left. -/
theorem parse_powerSample : powerSample.PlainNumerals ∧
    parse powerSample.minimalText = .ok powerSampleTree ∧
      powerSampleTree.toExpr.unplaced = powerSample.unplaced := by
  have parsed : parse powerSample.minimalText = .ok powerSampleTree := by rfl
  rcases parse_minimalText powerSample plainNumerals_powerSample with
    ⟨column, deep⟩ | ⟨t, read, same⟩
  · cases parsed.symm.trans deep
  · obtain rfl := Except.ok.inj (parsed.symm.trans read)
    exact ⟨plainNumerals_powerSample, parsed, same⟩

end Calculator
