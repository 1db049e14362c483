import Calculator.Tree.Parse

/-!
# Trees — every derivation is read

* `Reading.run_chain`: reading the lexemes that a tree derives leads behind that tree, whatever
  follows.
* `Reading.step_behind`: behind a tree, a lexeme that does not operate on the tree's level or a
  tighter one is read as if the tree were complete.
* `parseLexemes_of_lexemes`: **every derivation is parsed.**  Lexemes that a tree derives are
  parsed to that tree, if it does not nest too deep.
-/

namespace Calculator

namespace Tree

/-- The column at which the tree starts. -/
def startColumn {r : Rule} : Tree r → Nat
  | .number _ span => span.column
  | .group opening _ _ => opening.column
  | .plain operand => operand.startColumn
  | .negated minus _ => minus.column
  | .head operand => operand.startColumn
  | .link left _ _ _ _ => left.startColumn

/-- A tree starts where its first lexeme does. -/
theorem startColumn_eq {r : Rule} (t : Tree r) :
    ∃ x xs, t.lexemes = x :: xs ∧ t.startColumn = x.column := by
  induction t with
  | number text span => exact ⟨_, _, rfl, rfl⟩
  | group opening inner closing => exact ⟨_, _, rfl, rfl⟩
  | plain operand ih => exact ih
  | negated minus operand => exact ⟨_, _, rfl, rfl⟩
  | head operand ih => exact ih
  | link left op binds sign right ih =>
      obtain ⟨x, xs, h, hx⟩ := ih
      exact ⟨x, _, by rw [lexemes, h, List.cons_append], hx⟩

end Tree

/-- Whether an operator binds at level `l` or at a tighter one. -/
def Operator.within : Operator → Level → Bool
  | _, .expr => true
  | op, .term => op.level ≠ .expr
  | op, .factor => op.level = .factor

/-- Whether a token operates on the operands of a tree of the rule, or on its parts. -/
def Token.extends (token : Token) : Rule → Bool
  | .chain l => match token.operator? with
    | some op => op.within l
    | none => false
  | _ => false

namespace Reading

variable {goal : Rule}

/-- Behind a tree and in front of what may extend it: its last primary is complete, and the rules
around that primary are open. -/
def behindTree {r : Rule} : Tree r → Pending goal r → Reading goal
  | .number text span, p => .after (.number text span) p
  | .group opening inner closing, p => .after (.group opening inner closing) p
  | .plain operand, p => behindTree operand (.plain operand.startColumn p)
  | .negated minus operand, p => behindTree operand (.negated minus p)
  | .head operand, p => behindTree operand (.first operand.startColumn p)
  | .link left op binds sign right, p =>
      behindTree right (.right left.startColumn left op binds sign p)

theorem extends_of_operand {token : Token} {l : Level} (h : token.extends (.chain l) = false) :
    token.extends l.operand = false ∧ token.operatorAt? l = none := by
  unfold Token.extends Token.operatorAt? at *
  cases ho : token.operator? with
  | none => cases l <;> simp [Level.operand]
  | some op => cases l <;> cases op <;> simp_all [Operator.within, Operator.level, Level.operand]

/-- Behind a tree, a lexeme that does not extend the tree is read as if the tree were complete. -/
theorem step_behind {r : Rule} (t : Tree r) (p : Pending goal r) (x : Lexeme)
    (h : x.token.extends r = false) : (behindTree t p).step x = behind x t p := by
  induction t with
  | number => rfl
  | group => rfl
  | plain operand ih => exact ih _ rfl
  | negated minus operand ih => exact ih _ rfl
  | head operand ih =>
      obtain ⟨ho, hl⟩ := extends_of_operand h
      rw [behindTree, ih _ ho, behind, hl]
  | link left op binds sign right _ ih =>
      obtain ⟨ho, hl⟩ := extends_of_operand h
      rw [behindTree, ih _ ho, behind, hl]

/-- At the end of a line, a tree is complete. -/
theorem finish_behind {r : Rule} (t : Tree r) (p : Pending goal r) (column : Nat) :
    (behindTree t p).finish column = close column t p := by
  induction t with
  | number => rfl
  | group => rfl
  | plain operand ih => exact ih _
  | negated minus operand ih => exact ih _
  | head operand ih => exact ih _
  | link left op binds sign right _ ih => exact ih _

theorem operatorAt?_token {op : Operator} {l : Level} (binds : op.level = l) :
    op.token.operatorAt? l = some ⟨op, binds⟩ := by
  simp [Token.operatorAt?, binds]

/-- Behind a chain, an operator of its level asks for another operand. -/
theorem step_operator {l : Level} (t : Tree (.chain l)) (p : Pending goal (.chain l))
    (op : Operator) (binds : op.level = l) (sign : Span) :
    (behindTree t p).step ⟨op.token, sign⟩
      = .next (operand l (.right t.startColumn t op binds sign p)) := by
  have tight : op.token.extends l.operand = false := by
    subst binds
    cases op <;> rfl
  cases t with
  | head o => rw [behindTree, step_behind _ _ _ tight, behind, operatorAt?_token binds]; rfl
  | link left op' binds' sign' right =>
      rw [behindTree, step_behind _ _ _ tight, behind, operatorAt?_token binds]; rfl

/-- What a step leads to, in front of `rest`. -/
def follow (column : Nat) (x : Lexeme) (rest : List Lexeme) :
    Step goal → Except ParseError (Tree goal × List Lexeme)
  | .next s => run column s rest
  | .stop t => .ok (t, x :: rest)
  | .fail e => .error e

theorem run_cons (column : Nat) (s : Reading goal) (x : Lexeme) (rest : List Lexeme) :
    run column s (x :: rest) = follow column x rest (s.step x) := by
  rw [run]
  cases s.step x <;> rfl

/-- What the first lexeme of a tree that takes the missing place leads to. -/
def before (x : Lexeme) : {r : Rule} → Pending goal r → Step goal
  | .chain l, p => atBase (p.descend x.column l) x
  | .base, p => atBase p x
  | .primary, p => atPrimary primaryStart p x

theorem before_operand {l : Level} (x : Lexeme) (p : Pending goal (.chain l)) :
    before x (.first x.column p) = before x p := by
  cases l <;> rfl

theorem step_operand {l : Level} (x : Lexeme) (p : Pending goal l.operand) :
    (operand l p).step x = before x p := by
  cases l <;> rfl

/-- Reading what a tree derives leads behind the tree. -/
theorem follow_before {r : Rule} (t : Tree r) (p : Pending goal r) (column : Nat)
    {x : Lexeme} {xs : List Lexeme} (h : t.lexemes = x :: xs) (rest : List Lexeme) :
    follow column x (xs ++ rest) (before x p) = run column (behindTree t p) rest := by
  induction t generalizing x xs rest with
  | number text span =>
      cases h
      rfl
  | group opening inner closing ih =>
      cases h
      obtain ⟨y, ys, hy, -⟩ := inner.startColumn_eq
      show run column (.chain .expr (.group opening p)) _ = _
      rw [hy, List.cons_append, List.cons_append, List.append_assoc, run_cons]
      refine (ih _ hy _).trans ?_
      rw [List.singleton_append, run_cons, step_behind _ _ _ rfl]
      rfl
  | plain operand ih =>
      obtain ⟨y, ys, hy, hc⟩ := operand.startColumn_eq
      have hxy : y :: ys = x :: xs := hy.symm.trans h
      cases hxy
      rw [behindTree, ← ih _ hy rest, hc]
      cases operand <;> cases hy <;> rfl
  | negated minus operand ih =>
      cases h
      obtain ⟨y, ys, hy, -⟩ := operand.startColumn_eq
      show run column (.primary (.negated minus p)) _ = _
      rw [hy, List.cons_append, run_cons]
      exact ih _ hy rest
  | head operand ih =>
      obtain ⟨y, ys, hy, hc⟩ := operand.startColumn_eq
      have hxy : y :: ys = x :: xs := hy.symm.trans h
      cases hxy
      rw [behindTree, ← ih _ hy rest, hc, before_operand]
  | @link l left op binds sign right ihl ihr =>
      obtain ⟨y, ys, hy, -⟩ := left.startColumn_eq
      obtain ⟨z, zs, hz, -⟩ := right.startColumn_eq
      rw [Tree.lexemes, hy, List.cons_append] at h
      cases h
      rw [List.append_assoc, ihl p hy, List.cons_append, run_cons,
        step_operator left p op binds sign]
      show run column (operand l _) _ = _
      rw [hz, List.cons_append, run_cons, step_operand, ihr _ hz, behindTree]

/-- Reading what a chain derives leads behind the chain, whatever follows. -/
theorem run_chain {l : Level} (t : Tree (.chain l)) (p : Pending goal (.chain l)) (column : Nat)
    (rest : List Lexeme) :
    run column (.chain l p) (t.lexemes ++ rest) = run column (behindTree t p) rest := by
  obtain ⟨x, xs, h, -⟩ := t.startColumn_eq
  rw [h, List.cons_append, run_cons]
  exact follow_before t p column h rest

end Reading

/-- A chain is read up to a lexeme that does not extend it. -/
theorem parseChain_of_lexemes {l : Level} (t : Tree (.chain l)) (column : Nat)
    (rest : List Lexeme) (h : ∀ x ∈ rest.head?, x.token.extends (.chain l) = false) :
    parseChain column l (t.lexemes ++ rest) = .ok (t, rest) := by
  rw [parseChain, Reading.run_chain]
  cases rest with
  | nil => rw [Reading.run, Reading.finish_behind]; rfl
  | cons x rest =>
      rw [Reading.run_cons, Reading.step_behind t _ x (h x rfl)]
      rfl

/-! ### Whole lines -/

/-- The groups of a tree that nests not too deep are not too deep. -/
theorem deepGroup?_append {r : Rule} (t : Tree r) (max depth : Nat) (rest : List Lexeme)
    (h : depth + t.depth ≤ max + 1) :
    deepGroup? max depth (t.lexemes ++ rest) = deepGroup? max depth rest := by
  induction t generalizing depth rest with
  | number => rfl
  | group opening inner closing ih =>
      rw [Tree.depth_group] at h
      have := inner.one_le_depth
      rw [Tree.lexemes, List.cons_append, deepGroup?, if_neg (by omega), List.append_assoc,
        ih (depth + 1) _ (by omega)]
      simp [deepGroup?]
  | plain operand ih => exact ih depth rest (by simpa using h)
  | negated minus operand ih =>
      rw [Tree.depth_negated] at h
      exact ih depth rest (by omega)
  | head operand ih => exact ih depth rest (by simpa using h)
  | link left op binds sign right ihl ihr =>
      rw [Tree.depth_link] at h
      have hl : left.depth = left.deepest + left.links := rfl
      rw [Tree.lexemes, List.append_assoc, ihl depth _ (by omega), List.cons_append,
        ← ihr depth rest (by omega)]
      cases op <;> rfl

/-- Lexemes that a tree derives are parsed to that tree, if it does not nest too deep. -/
theorem parseLexemes_of_lexemes (t : ExprTree) (length : Nat) (h : t.depth ≤ maxDepth) :
    parseLexemes t.lexemes length = .ok t := by
  have groups : deepGroup? maxDepth 0 t.lexemes = none := by
    have := deepGroup?_append t maxDepth 0 [] (by omega)
    rwa [List.append_nil] at this
  have chain := parseChain_of_lexemes t (length + 1) [] (by simp)
  rw [List.append_nil] at chain
  rw [parseLexemes, if_neg (by simpa using t.lexemes_ne_nil), groups]
  dsimp only
  rw [chain]
  exact if_neg (by omega)

end Calculator
