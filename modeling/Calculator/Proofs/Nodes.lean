import Calculator.Proofs.Quotient
import Calculator.Proofs.Results

/-!
# Expressions — their nodes

An expression is looked at node by node: which lexemes a node comes from, and which node keeps an
expression from having a value.

* `Tree.exists_lexeme_of_mem_nodes`: the literals of an expression are the numerals of its line,
  without separators.
* `Tree.column_of_mem_nodes`: a node starts where a lexeme does.
* `Operator.faults_of_apply`: what an operation fails with, by its operator.
* `Expr.evaluate_eq_error`: **a fault is the fault of one node**, which is a literal or an
  operation.
* `Expr.column_of_evaluate`: so it lies at the column of a node.
-/

namespace Calculator

/-- The columns at which lexemes start. -/
def columnsOf (xs : List Lexeme) : List Nat := xs.map Lexeme.column

theorem columnsOf_append (xs ys : List Lexeme) :
    columnsOf (xs ++ ys) = columnsOf xs ++ columnsOf ys :=
  List.map_append

/-- What covers two spans starts where one of them does. -/
theorem Span.column_cover_mem {a b : Span} {columns : List Nat} (ha : a.column ∈ columns)
    (hb : b.column ∈ columns) : (a.cover b).column ∈ columns := by
  rcases a.start_cover_eq_or b with same | same
  · rwa [column, same]
  · rwa [column, same]

namespace Expr

/-- The part of the line that the node was read from. -/
def Node.span : Node → Span
  | .num _ span => span
  | .neg span => span
  | .binary _ span => span

/-- An expression was read from where its last node was. -/
theorem exists_node_span (e : Expr) : ∃ node ∈ e.nodes, node.span = e.span := by
  cases e with
  | num text span => exact ⟨.num text span, by simp, rfl⟩
  | neg operand span => exact ⟨.neg span, by simp, rfl⟩
  | binary left op right span => exact ⟨.binary op span, by simp, rfl⟩

end Expr

/-! ### Nodes and lexemes -/

namespace Tree

variable {r : Rule}

theorem column_of_spans (t : Tree r) :
    t.spans.1.column ∈ columnsOf t.lexemes ∧ t.span.column ∈ columnsOf t.lexemes := by
  induction t with
  | number text span => exact ⟨List.mem_singleton_self _, List.mem_singleton_self _⟩
  | group opening inner closing =>
      have covered : (opening.cover closing).column
          ∈ columnsOf (group opening inner closing).lexemes :=
        Span.column_cover_mem List.mem_cons_self (by simp [lexemes, columnsOf, Lexeme.column])
      exact ⟨covered, covered⟩
  | plain operand ih => exact ih
  | negated minus operand ih =>
      have covered : (minus.cover operand.span).column
          ∈ columnsOf (negated minus operand).lexemes :=
        Span.column_cover_mem List.mem_cons_self (List.mem_cons_of_mem _ ih.2)
      exact ⟨covered, covered⟩
  | head operand ih => exact ⟨ih.2, ih.2⟩
  | link left op binds sign right ihl ihr =>
      rw [lexemes, columnsOf_append]
      have first := List.mem_append_left (columnsOf (⟨op.token, sign⟩ :: right.lexemes)) ihl.1
      exact ⟨first, Span.column_cover_mem first
        (List.mem_append_right _ (List.mem_cons_of_mem _ ihr.2))⟩

/-- A tree starts where one of its lexemes does. -/
theorem column_of_span (t : Tree r) : t.span.column ∈ columnsOf t.lexemes := t.column_of_spans.2

/-- A node starts where a lexeme does. -/
theorem column_of_mem_nodes (t : Tree r) :
    ∀ node ∈ t.toExpr.nodes, node.span.column ∈ columnsOf t.lexemes := by
  induction t with
  | number text span =>
      intro node mem
      obtain rfl := List.mem_singleton.mp mem
      exact List.mem_singleton_self _
  | group opening inner closing ih =>
      intro node mem
      rw [lexemes, columnsOf, List.map_cons, ← columnsOf, columnsOf_append]
      exact List.mem_cons_of_mem _ (List.mem_append_left _ (ih node mem))
  | plain operand ih => exact ih
  | negated minus operand ih =>
      intro node mem
      rw [toExpr, Expr.nodes_neg] at mem
      rcases List.mem_append.mp mem with mem | mem
      · exact List.mem_cons_of_mem _ (ih node mem)
      · obtain rfl := List.mem_singleton.mp mem
        exact (negated minus operand).column_of_span
  | head operand ih => exact ih
  | link left op binds sign right ihl ihr =>
      have hl (c : Nat) (h : c ∈ columnsOf left.lexemes) :
          c ∈ columnsOf (link left op binds sign right).lexemes := by
        rw [lexemes, columnsOf_append]
        exact List.mem_append_left _ h
      have hr (c : Nat) (h : c ∈ columnsOf right.lexemes) :
          c ∈ columnsOf (link left op binds sign right).lexemes := by
        rw [lexemes, columnsOf_append]
        exact List.mem_append_right _ (List.mem_cons_of_mem _ h)
      intro node mem
      rw [toExpr, Expr.nodes_binary] at mem
      rcases List.mem_append.mp mem with mem | mem
      · exact hl _ (ihl node mem)
      · rcases List.mem_append.mp mem with mem | mem
        · exact hr _ (ihr node mem)
        · -- the operation reaches from its left operand to its right one
          obtain rfl := List.mem_singleton.mp mem
          obtain ⟨first, memL, spanL⟩ := left.toExpr.exists_node_span
          obtain ⟨last, memR, spanR⟩ := right.toExpr.exists_node_span
          exact Span.column_cover_mem (hl _ (spanL ▸ ihl first memL))
            (hr _ (spanR ▸ ihr last memR))

/-- The literals of an expression are the numerals of its lexemes, without separators. -/
theorem exists_lexeme_of_mem_nodes {t : Tree r} {text : String} {span : Span}
    (mem : .num text span ∈ t.toExpr.nodes) :
    ∃ written, ⟨.number written, span⟩ ∈ t.lexemes ∧ text = withoutSeparators written := by
  induction t with
  | number written place =>
      obtain ⟨rfl, rfl⟩ := Expr.Node.num.inj (List.mem_singleton.mp mem)
      exact ⟨written, List.mem_singleton_self _, rfl⟩
  | group opening inner closing ih =>
      obtain ⟨written, lexeme, e⟩ := ih mem
      exact ⟨written, List.mem_cons_of_mem _ (List.mem_append_left _ lexeme), e⟩
  | plain operand ih => exact ih mem
  | negated minus operand ih =>
      rw [toExpr, Expr.nodes_neg] at mem
      rcases List.mem_append.mp mem with mem | mem
      · obtain ⟨written, lexeme, e⟩ := ih mem
        exact ⟨written, List.mem_cons_of_mem _ lexeme, e⟩
      · cases List.mem_singleton.mp mem
  | head operand ih => exact ih mem
  | link left op binds sign right ihl ihr =>
      rw [toExpr, Expr.nodes_binary] at mem
      rcases List.mem_append.mp mem with mem | mem
      · obtain ⟨written, lexeme, e⟩ := ihl mem
        exact ⟨written, List.mem_append_left _ lexeme, e⟩
      · rcases List.mem_append.mp mem with mem | mem
        · obtain ⟨written, lexeme, e⟩ := ihr mem
          exact ⟨written, List.mem_append_right _ (List.mem_cons_of_mem _ lexeme), e⟩
        · cases List.mem_singleton.mp mem

end Tree

/-! ### Nodes and faults -/

variable {limits : Limits} {a b : Decimal} {right : Expr} {span : Span} {fault : EvalError}

theorem evaluateLiteral_eq_error {text : String}
    (h : evaluateLiteral text span = .error fault) :
    (∀ d, Decimal.ofText text ≠ .ok d) ∧ fault = ⟨.invalidLiteral text, span.column⟩ := by
  rw [evaluateLiteral] at h
  split at h
  · cases h
  · rename_i malformed
    refine ⟨fun d eq => ?_, (Except.error.inj h).symm⟩
    cases malformed.symm.trans eq

/-- A power is undefined for a base of zero only. -/
theorem Decimal.eq_zero_of_pow {n : Int} {precision : Nat}
    (h : a.pow n precision = .error .divisionByZero) : a.value = 0 := by
  rw [pow] at h
  dsimp only at h
  split at h
  · rename_i bounds
    split at h
    · rcases div_eq_error h with overflow | ⟨-, zero⟩
      · cases overflow
      · rw [value_power a n.natAbs bounds.2] at zero
        exact eq_zero_of_pow_eq_zero zero
    · cases h
  · cases h

/-- What an operation at `span` on the values `a` and `b` fails with, by its operator; `right` is
where the value `b` comes from. -/
inductive Operator.Faults (limits : Limits) (a b : Decimal) (right : Expr) (span : Span) :
    Operator → EvalError → Prop
  | resultTooLarge (op : Operator) {n : Nat} (large : limits.maxDigits.toNat < n) :
      Faults limits a b right span op ⟨.resultTooLarge n limits.maxDigits.toNat, span.column⟩
  | scaleOverflow (op : Operator) :
      Faults limits a b right span op ⟨.scaleOverflow, span.column⟩
  | zeroDivisor (zero : b.value = 0) :
      Faults limits a b right span .div ⟨.divisionByZero right.text, right.column⟩
  | zeroBase (zero : a.value = 0) :
      Faults limits a b right span .pow ⟨.divisionByZero a.text, span.column⟩
  | fractionalExponent (fraction : b.toInteger? = none) :
      Faults limits a b right span .pow ⟨.fractionalExponent b.text, right.column⟩
  | exponentTooLarge {n : Int} (integer : b.toInteger? = some n)
      (large : limits.maxExponent.toNat < n.natAbs) : Faults limits a b right span .pow
        ⟨.exponentTooLarge b.text limits.maxExponent.toNat, right.column⟩

theorem Operator.faults_of_apply {op : Operator}
    (h : op.apply limits a b right span = .error fault) :
    op.Faults limits a b right span fault := by
  have refused {op : Operator} {n : Nat} (h : limits.allow n span = .error fault) :
      op.Faults limits a b right span fault := by
    obtain ⟨large, rfl⟩ := allow_eq_error_iff.mp h
    exact .resultTooLarge op large
  cases op with
  | add => cases h
  | sub => cases h
  | mul =>
      rw [apply_mul] at h
      rcases bind_eq_error.mp h with h | ⟨-, -, h⟩
      · exact refused h
      · obtain ⟨e, overflow, rfl⟩ := mapError_eq_error.mp h
        rw [Decimal.mul] at overflow
        split at overflow <;> cases overflow
        exact .scaleOverflow _
  | div =>
      obtain ⟨e, quotient, rfl⟩ := mapError_eq_error.mp h
      rcases Decimal.div_eq_error quotient with rfl | ⟨rfl, zero⟩
      · exact .scaleOverflow _
      · exact .zeroDivisor zero
  | pow =>
      rw [apply] at h
      cases integer : b.toInteger? with
      | none =>
          rw [Decimal.raise_of_none integer] at h
          cases h
          exact .fractionalExponent integer
      | some n =>
          by_cases small : n.natAbs ≤ limits.maxExponent.toNat
          · rw [Decimal.raise_of_toInteger? integer small] at h
            rcases bind_eq_error.mp h with h | ⟨-, -, h⟩
            · exact refused h
            · obtain ⟨e, power, rfl⟩ := mapError_eq_error.mp h
              cases e with
              | divisionByZero => exact .zeroBase (Decimal.eq_zero_of_pow power)
              | scaleOverflow => exact .scaleOverflow _
          · rw [Decimal.raise_of_large integer (Nat.not_le.mp small)] at h
            cases h
            exact .exponentTooLarge integer (Nat.not_le.mp small)

/-- The fault of an operation lies where the operation or its right operand starts, and it is not
that of a literal. -/
theorem Operator.apply_eq_error {op : Operator}
    (h : op.apply limits a b right span = .error fault) :
    (fault.column = span.column ∨ fault.column = right.column) ∧
      ∀ text, fault.cause ≠ .invalidLiteral text := by
  cases faults_of_apply h with
  | resultTooLarge => exact ⟨.inl rfl, nofun⟩
  | scaleOverflow => exact ⟨.inl rfl, nofun⟩
  | zeroDivisor => exact ⟨.inr rfl, nofun⟩
  | zeroBase => exact ⟨.inl rfl, nofun⟩
  | fractionalExponent => exact ⟨.inr rfl, nofun⟩
  | exponentTooLarge => exact ⟨.inr rfl, nofun⟩

/-- The fault is that of a literal among the nodes, or of an operation among them whose right
operand has its nodes there, too. -/
def EvalError.ComesFrom (limits : Limits) (fault : EvalError) (nodes : List Expr.Node) : Prop :=
  (∃ text span, .num text span ∈ nodes ∧ evaluateLiteral text span = .error fault) ∨
    ∃ op a b right span, .binary op span ∈ nodes ∧ right.nodes ⊆ nodes ∧
      op.apply limits a b right span = .error fault

theorem EvalError.ComesFrom.mono {nodes nodes' : List Expr.Node}
    (h : fault.ComesFrom limits nodes) (sub : nodes ⊆ nodes') : fault.ComesFrom limits nodes' := by
  rcases h with ⟨text, span, mem, literal⟩ | ⟨op, a, b, right, span, mem, operand, applied⟩
  · exact .inl ⟨text, span, sub mem, literal⟩
  · exact .inr ⟨op, a, b, right, span, sub mem, fun _ h => sub (operand h), applied⟩

/-- **A fault is the fault of one node.**  An expression has no value because of one literal in it,
or of one operation on the values of its operands. -/
theorem Expr.evaluate_eq_error {e : Expr} (h : e.evaluate limits = .error fault) :
    fault.ComesFrom limits e.nodes := by
  induction e with
  | num text span => exact .inl ⟨text, span, List.mem_singleton_self _, h⟩
  | neg operand span ih =>
      rcases bind_eq_error.mp h with h | ⟨a, -, ⟨⟩⟩
      exact (ih h).mono (nodes_subset_neg operand span)
  | binary left op right span ihl ihr =>
      rw [evaluate_binary] at h
      rcases bind_eq_error.mp h with h | ⟨a, -, h⟩
      · exact (ihl h).mono (nodes_subset_left left op right span)
      · rcases bind_eq_error.mp h with h | ⟨b, -, h⟩
        · exact (ihr h).mono (nodes_subset_right left op right span)
        · exact .inr ⟨op, a, b, right, span, by simp, nodes_subset_right left op right span, h⟩

/-- A fault lies at the column of a node. -/
theorem Expr.column_of_evaluate {e : Expr} (h : e.evaluate limits = .error fault) :
    ∃ node ∈ e.nodes, fault.column = node.span.column := by
  rcases evaluate_eq_error h with
    ⟨text, span, mem, literal⟩ | ⟨op, a, b, right, span, mem, sub, applied⟩
  · obtain ⟨-, rfl⟩ := evaluateLiteral_eq_error literal
    exact ⟨_, mem, rfl⟩
  · rcases (Operator.apply_eq_error applied).1 with column | column
    · exact ⟨_, mem, column⟩
    · obtain ⟨node, memR, spanR⟩ := right.exists_node_span
      exact ⟨node, sub memR, by rw [column, spanR, Expr.column]⟩

end Calculator
