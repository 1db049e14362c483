import Calculator.Tree.Complete

/-!
# Trees — the grammar, and nothing else, is parsed

`Derives xs t` says that `t` derives the lexemes `xs` by the grammar as it is written: a chain is
an operand followed by any number of operators with an operand each, read from left to right.
`Tree.lexemes` reads the same trees the other way, as chains that grow at their right end.

* `derives_iff`: the two agree.
* `Derives.unique`: **the grammar is unambiguous**, at every level of operators.
* `parseLexemes_eq_ok_iff`: lexemes are parsed to a tree if and only if the tree derives them and
  does not nest too deep; the check on groups, made in advance, refuses nothing else.
-/

namespace Calculator

mutual

/-- The tree derives the lexemes.  Texts, operators and spans are those of the lexemes; a group
reaches from its opening to its closing parenthesis. -/
inductive Derives : {r : Rule} → List Lexeme → Tree r → Prop where
  | number (text : String) (span : Span) : Derives [⟨.number text, span⟩] (.number text span)
  | group (opening : Span) {xs : List Lexeme} {inner : ExprTree} (h : Derives xs inner)
      (closing : Span) :
      Derives (⟨.lparen, opening⟩ :: xs ++ [⟨.rparen, closing⟩]) (.group opening inner closing)
  | plain {xs : List Lexeme} {t : Tree .primary} (h : Derives xs t) : Derives xs (.plain t)
  | negated (minus : Span) {xs : List Lexeme} {t : Tree .primary} (h : Derives xs t) :
      Derives (⟨.minus, minus⟩ :: xs) (.negated minus t)
  | chain {l : Level} {xs ys : List Lexeme} {first : Tree l.operand} {t : Tree (.chain l)}
      (h : Derives xs first) (more : Continues (.head first) ys t) : Derives (xs ++ ys) t

/-- Behind the chain `left`, the lexemes add operators of its level, with an operand each, and
make it the second chain. -/
inductive Continues : {l : Level} → (left : Tree (.chain l)) → List Lexeme → Tree (.chain l) → Prop
    where
  | done {l : Level} (t : Tree (.chain l)) : Continues t [] t
  | more {l : Level} {left t : Tree (.chain l)} (op : Operator) (binds : op.level = l)
      (sign : Span) {xs ys : List Lexeme} {right : Tree l.operand} (h : Derives xs right)
      (rest : Continues (.link left op binds sign right) ys t) :
      Continues left (⟨op.token, sign⟩ :: xs ++ ys) t

end

/-! ### The grammar and the lexemes of a tree -/

mutual

/-- A tree derives its lexemes only. -/
theorem Derives.lexemes_eq {r : Rule} {xs : List Lexeme} {t : Tree r} :
    Derives xs t → t.lexemes = xs
  | .number _ _ => rfl
  | .group _ h _ => by rw [Tree.lexemes, h.lexemes_eq, List.cons_append]
  | .plain h => h.lexemes_eq
  | .negated _ h => congrArg _ h.lexemes_eq
  | .chain h more => by rw [more.lexemes_eq, Tree.lexemes, h.lexemes_eq]

theorem Continues.lexemes_eq {l : Level} {xs : List Lexeme} {left t : Tree (.chain l)} :
    Continues left xs t → t.lexemes = left.lexemes ++ xs
  | .done _ => (List.append_nil _).symm
  | .more _ _ _ h rest => by
      rw [rest.lexemes_eq, Tree.lexemes, h.lexemes_eq, List.append_assoc, List.cons_append]

end

/-- One operator and operand more, at the right end. -/
theorem Continues.snoc {l : Level} {xs ys : List Lexeme} {left t : Tree (.chain l)}
    {right : Tree l.operand} (op : Operator) (binds : op.level = l) (sign : Span)
    (h : Derives ys right) :
    Continues left xs t →
      Continues left (xs ++ ⟨op.token, sign⟩ :: ys) (.link t op binds sign right)
  | .done _ => by simpa using Continues.more op binds sign h (.done _)
  | .more op' binds' sign' h' rest => by
      rw [List.append_assoc]
      exact .more op' binds' sign' h' (rest.snoc op binds sign h)

/-- A tree derives its lexemes. -/
theorem Tree.derives {r : Rule} (t : Tree r) : Derives t.lexemes t := by
  induction t with
  | number text span => exact .number text span
  | group opening inner closing ih =>
      rw [Tree.lexemes, ← List.cons_append]
      exact .group opening ih closing
  | plain operand ih => exact .plain ih
  | negated minus operand ih => exact .negated minus ih
  | head operand ih =>
      have h := Derives.chain ih (.done _)
      rwa [List.append_nil] at h
  | link left op binds sign right ihl ihr =>
      rw [Tree.lexemes]
      -- the split of the left chain into first operand and rest takes the place of its lexemes
      generalize left.lexemes = xs at ihl
      cases ihl with
      | chain h more =>
          rw [List.append_assoc]
          exact .chain h (more.snoc op binds sign ihr)

theorem derives_iff {r : Rule} {xs : List Lexeme} {t : Tree r} : Derives xs t ↔ t.lexemes = xs := by
  refine ⟨Derives.lexemes_eq, ?_⟩
  rintro rfl
  exact t.derives

/-! ### Unambiguity -/

/-- **The grammar is unambiguous.**  Reading what a chain derives leads to that chain, so that no
other chain of the level derives the same. -/
theorem Derives.unique {l : Level} {xs : List Lexeme} {t t' : Tree (.chain l)} (h : Derives xs t)
    (h' : Derives xs t') : t = t' := by
  have read := parseChain_of_lexemes t 0 [] (by simp)
  have read' := parseChain_of_lexemes t' 0 [] (by simp)
  rw [h.lexemes_eq] at read
  rw [h'.lexemes_eq, read] at read'
  cases read'
  rfl

/-! ### Whole lines -/

/-- A tree that does not nest too deep has no group that the check in advance refuses. -/
theorem Derives.deepGroup?_eq_none {xs : List Lexeme} {t : ExprTree} (h : Derives xs t)
    (deep : t.depth ≤ maxDepth) : deepGroup? maxDepth 0 xs = none := by
  have none := deepGroup?_append t maxDepth 0 [] (by omega)
  rw [List.append_nil, h.lexemes_eq] at none
  exact none

/-- Lexemes of a tree that nests too deep are refused for that, by one check or the other. -/
theorem parseLexemes_of_deep {t : ExprTree} (length : Nat) (deep : maxDepth < t.depth) :
    ∃ column, parseLexemes t.lexemes length = .error ⟨.tooDeep maxDepth, column, []⟩ := by
  have chain := parseChain_of_lexemes t (length + 1) [] (by simp)
  rw [List.append_nil] at chain
  rw [parseLexemes, if_neg (by simpa using t.lexemes_ne_nil)]
  cases deepGroup? maxDepth 0 t.lexemes with
  | some column => exact ⟨column, rfl⟩
  | none =>
      refine ⟨t.span.column, ?_⟩
      dsimp only
      rw [chain]
      exact if_pos deep

/-- **Parsing is the grammar with the nesting limit.**  Whatever the lexemes and the length of
their line, a tree is returned if and only if it derives them and nests at most `maxDepth` levels.
There is at most one such tree, its lexemes are the given ones in their order, and the check on
groups never refuses lexemes that such a tree derives. -/
theorem parseLexemes_eq_ok_iff (xs : List Lexeme) (length : Nat) :
    (∀ t : ExprTree, parseLexemes xs length = .ok t ↔ Derives xs t ∧ t.depth ≤ maxDepth) ∧
      (∀ t t' : ExprTree, Derives xs t → Derives xs t' → t = t') ∧
      (∀ t : ExprTree, Derives xs t → t.lexemes = xs) ∧
      (∀ t : ExprTree, Derives xs t → t.depth ≤ maxDepth → deepGroup? maxDepth 0 xs = none) := by
  refine ⟨fun t => ⟨fun h => ?_, ?_⟩, fun _ _ => Derives.unique, fun _ => Derives.lexemes_eq,
    fun _ => Derives.deepGroup?_eq_none⟩
  · exact ⟨derives_iff.mpr (parseLexemes_lexemes h), parseLexemes_depth_le h⟩
  · rintro ⟨h, deep⟩
    rw [← h.lexemes_eq]
    exact parseLexemes_of_lexemes t length deep

end Calculator
