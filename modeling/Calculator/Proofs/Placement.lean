import Calculator.Proofs.Extents

/-!
# Expressions — where their parts stand

Every part of the expression of a line stands among the lexemes of the line as it was read from
them: it starts with one lexeme and ends with one, its operands lie inside it, and a sign stands in
front of the operand or between the two.  Groups leave no node and the spans of chains are joined
from the left, so that a span may be less than the extent of the tree; it is still delimited by
lexemes, and nested.

* `Tree.exists_of_occurs`: a part of the expression of a tree is the expression of a part of it.
* `Tree.delimited`: the expression of a tree starts with a lexeme and ends with one.
* `Tree.laid`: its operands lie inside it, and apart from their signs.
* `toExpr_placed`: **the spans of an expression are nested and in order**.
-/

namespace Calculator

/-! ### Spans -/

namespace Span

/-- Every byte of the first span is a byte of the second. -/
def Inside (a b : Span) : Prop := b.start ≤ a.start ∧ a.stop ≤ b.stop

theorem inside_cover_left (a b : Span) : a.Inside (a.cover b) :=
  ⟨Nat.min_le_left _ _, Nat.le_max_left _ _⟩

theorem inside_cover_right (a b : Span) : b.Inside (a.cover b) :=
  ⟨Nat.min_le_right _ _, Nat.le_max_right _ _⟩

theorem Inside.trans {a b c : Span} (h : a.Inside b) (h' : b.Inside c) : a.Inside c :=
  ⟨h'.1.trans h.1, h.2.trans h'.2⟩

/-- The span starts where a lexeme does, and stops where one does. -/
structure Delimited (span : Span) (xs : List Lexeme) : Prop where
  starts : ∃ x ∈ xs, x.span.start = span.start
  stops : ∃ x ∈ xs, x.span.stop = span.stop

namespace Delimited

variable {a b : Span} {xs ys : List Lexeme}

theorem mono (h : a.Delimited xs) (sub : xs ⊆ ys) : a.Delimited ys where
  starts := h.starts.imp fun _ => And.imp_left fun mem => sub mem
  stops := h.stops.imp fun _ => And.imp_left fun mem => sub mem

theorem cover (ha : a.Delimited xs) (hb : b.Delimited xs) : (a.cover b).Delimited xs where
  starts := by
    rcases a.start_cover_eq_or b with same | same
    · exact same ▸ ha.starts
    · exact same ▸ hb.starts
  stops := by
    rcases a.stop_cover_eq_or b with same | same
    · exact same ▸ ha.stops
    · exact same ▸ hb.stops

end Delimited

end Span

/-- The extent of lexemes is delimited by the first and the last of them. -/
theorem extentOf_delimited {xs : List Lexeme} (hx : xs ≠ []) : (extentOf xs).Delimited xs where
  starts := ⟨xs.head hx, List.head_mem hx, by rw [extentOf, List.head?_eq_some_head hx]; rfl⟩
  stops := ⟨xs.getLast hx, List.getLast_mem hx, by
    rw [extentOf, List.getLast?_eq_some_getLast hx]; rfl⟩

/-! ### Parts of expressions -/

namespace Expr

/-- The expression is a part of another, or the whole of it. -/
inductive Occurs (e : Expr) : Expr → Prop where
  | here : Occurs e e
  | operand {operand : Expr} {span : Span} (h : Occurs e operand) : Occurs e (.neg operand span)
  | left {left : Expr} {op : Operator} {right : Expr} {span : Span} (h : Occurs e left) :
      Occurs e (.binary left op right span)
  | right {left : Expr} {op : Operator} {right : Expr} {span : Span} (h : Occurs e right) :
      Occurs e (.binary left op right span)

/-- How an expression is laid out in a line with the lexemes `xs`. -/
inductive Laid (line : String) (xs : List Lexeme) : Expr → Prop where
  /-- A number is a numeral that is written at its span, without separators. -/
  | num {written : String} {span : Span} {before after : List Char}
      (mem : ⟨.number written, span⟩ ∈ xs)
      (stands : Lexeme.Stands ⟨.number written, span⟩ line.toList before after) :
      Laid line xs (.num (withoutSeparators written) span)
  /-- A negation starts with a minus sign, and its operand stands behind the sign. -/
  | neg {operand : Expr} {sign span : Span} (mem : ⟨.minus, sign⟩ ∈ xs)
      (starts : span.start = sign.start) (nonempty : sign.start < sign.stop)
      (behind : sign.stop ≤ operand.span.start) (inside : operand.span.Inside span) :
      Laid line xs (.neg operand span)
  /-- The sign of an operation stands between its operands. -/
  | binary {left : Expr} {op : Operator} {right : Expr} {sign span : Span}
      (mem : ⟨op.token, sign⟩ ∈ xs) (front : left.span.stop ≤ sign.start)
      (nonempty : sign.start < sign.stop) (behind : sign.stop ≤ right.span.start)
      (insideL : left.span.Inside span) (insideR : right.span.Inside span) :
      Laid line xs (.binary left op right span)

/-- The expression has a byte of the line, its span is delimited by lexemes, and its operands and
its sign are laid out within. -/
structure Placed (line : String) (xs : List Lexeme) (e : Expr) : Prop where
  nonempty : e.span.start < e.span.stop
  stop_le : e.span.stop ≤ line.utf8ByteSize
  delimited : e.span.Delimited xs
  laid : e.Laid line xs

end Expr

/-! ### Parts of trees -/

namespace Tree

variable {r : Rule} {line : String} {xs : List Lexeme}

/-- A part of the expression of a tree is the expression of a part of the tree. -/
theorem exists_of_occurs {t : Tree r} {e : Expr} (part : e.Occurs t.toExpr) :
    ∃ (r' : Rule) (c : Tree r'), c.Occurs t ∧ c.toExpr = e := by
  induction t with
  | number text span =>
      cases part with
      | here => exact ⟨_, _, .here, rfl⟩
  | group opening inner closing ih =>
      obtain ⟨r', c, within, rfl⟩ := ih part
      exact ⟨r', c, within.group, rfl⟩
  | plain operand ih =>
      obtain ⟨r', c, within, rfl⟩ := ih part
      exact ⟨r', c, within.plain, rfl⟩
  | negated minus operand ih =>
      cases part with
      | here => exact ⟨_, _, .here, rfl⟩
      | operand part =>
          obtain ⟨r', c, within, rfl⟩ := ih part
          exact ⟨r', c, within.negated, rfl⟩
  | head operand ih =>
      obtain ⟨r', c, within, rfl⟩ := ih part
      exact ⟨r', c, within.head, rfl⟩
  | link left op binds sign right ihl ihr =>
      cases part with
      | here => exact ⟨_, _, .here, rfl⟩
      | left part =>
          obtain ⟨r', c, within, rfl⟩ := ihl part
          exact ⟨r', c, within.left, rfl⟩
      | right part =>
          obtain ⟨r', c, within, rfl⟩ := ihr part
          exact ⟨r', c, within.right, rfl⟩

/-- The expression of a tree starts with one of its lexemes, and ends with one. -/
theorem delimited {t : Tree r} (h : InOrder t.lexemes) : t.toExpr.span.Delimited t.lexemes := by
  induction t with
  | number text span =>
      exact ⟨⟨_, List.mem_singleton_self _, rfl⟩, ⟨_, List.mem_singleton_self _, rfl⟩⟩
  | group opening inner closing ih =>
      exact (ih (inOrder_group h).1).mono fun _ mem =>
        List.mem_cons_of_mem _ (List.mem_append_left _ mem)
  | plain operand ih => exact ih h
  | negated minus operand =>
      have whole : (negated minus operand).toExpr.span = (negated minus operand).extent :=
        span_eq_extent h
      rw [whole]
      exact extentOf_delimited (lexemes_ne_nil _)
  | head operand ih => exact ih h
  | link left op binds sign right ihl ihr =>
      obtain ⟨orderL, orderR, -⟩ := inOrder_link h
      refine ((ihl orderL).mono fun _ mem => List.mem_append_left _ mem).cover ?_
      exact (ihr orderR).mono fun _ mem => List.mem_append_right _ (List.mem_cons_of_mem _ mem)

/-- The operands of an expression lie inside it, and apart from its sign. -/
theorem laid (scanned : scan line = .ok xs) {t : Tree r} (sub : t.lexemes <:+: xs) :
    t.toExpr.Laid line xs := by
  have tiled := tiled_of_scan scanned
  induction t with
  | number text span =>
      have mem : ⟨.number text, span⟩ ∈ xs := sub.subset (List.mem_singleton_self _)
      obtain ⟨-, before, after, stands, -⟩ := tiled.token _ mem
      exact .num mem stands
  | group opening inner closing ih =>
      have within : inner.Occurs (group opening inner closing) := .group .here
      exact ih (List.IsInfix.trans within.lexemes_infix sub)
  | plain operand ih => exact ih sub
  | negated minus operand =>
      obtain ⟨within, sign, front⟩ := inOrder_negated (tiled.inOrder.of_infix sub)
      obtain ⟨start_le, -, stop_le, -, -⟩ := reaches within
      have extent : operand.span = operand.extent := span_eq_extent within
      -- the sign reaches over the parentheses of a group, the operand's expression does not
      have inside : operand.toExpr.span.Inside operand.span := extent ▸ ⟨start_le, stop_le⟩
      have starts : (minus.cover operand.span).start = minus.start := by
        rw [extent]
        exact Nat.min_eq_left (by omega)
      exact .neg (sub.subset List.mem_cons_self) starts sign (front.trans start_le)
        (inside.trans (Span.inside_cover_right _ _))
  | head operand ih => exact ih sub
  | link left op binds sign right =>
      have ordered := tiled.inOrder.of_infix sub
      obtain ⟨orderL, orderR, -⟩ := inOrder_link ordered
      obtain ⟨front, operator, behind⟩ := sign_between ordered
      have mem : ⟨op.token, sign⟩ ∈ (link left op binds sign right).lexemes :=
        List.mem_append_right _ List.mem_cons_self
      exact .binary (sub.subset mem) ((reaches orderL).stop_le.trans front) operator
        (behind.trans (reaches orderR).start_le) (Span.inside_cover_left _ _)
        (Span.inside_cover_right _ _)

/-- The expression of a part of a line is placed among the lexemes of the line. -/
theorem placed (scanned : scan line = .ok xs) {t : Tree r} (sub : t.lexemes <:+: xs) :
    t.toExpr.Placed line xs := by
  have tiled := tiled_of_scan scanned
  have ordered := tiled.inOrder.of_infix sub
  have delimited := (delimited ordered).mono sub.subset
  obtain ⟨last, mem, stop⟩ := delimited.stops
  exact ⟨(reaches ordered).start_lt_stop, stop ▸ (tiled.bounds last mem).2.2, delimited,
    laid scanned sub⟩

end Tree

/-- **The spans of an expression are nested and in order.**  Every part of the expression of a line
has a byte of the line, starts with a token of the line and ends with one.  A number stands where
its numeral is written, separators included; the operands of a negation and of an operation lie
inside it, the first behind its minus sign and the others on the two sides of their sign. -/
theorem toExpr_placed {line : String} {t : ExprTree} (h : parse line = .ok t) {e : Expr}
    (part : e.Occurs t.toExpr) : scan line = .ok t.lexemes ∧ e.Placed line t.lexemes := by
  have scanned := (scan_of_parse h).1
  obtain ⟨r, c, within, rfl⟩ := Tree.exists_of_occurs part
  exact ⟨scanned, Tree.placed scanned within.lexemes_infix⟩

/-- The tree of `2*-(1,200)`. -/
def groupedProduct : ExprTree :=
  .head (.link (.head (.head (.plain (.number "2" ⟨0, 1⟩)))) .mul rfl ⟨1, 2⟩
    (.head (.negated ⟨2, 3⟩
      (.group ⟨3, 4⟩ (.head (.head (.head (.plain (.number "1,200" ⟨4, 9⟩))))) ⟨9, 10⟩))))

/-- The negation reaches over the parentheses around its operand. -/
theorem toExpr_placed_groupedProduct : parse "2*-(1,200)" = .ok groupedProduct ∧
    (Expr.neg (.num "1200" ⟨4, 9⟩) ⟨2, 10⟩).Occurs groupedProduct.toExpr ∧
      scan "2*-(1,200)" = .ok groupedProduct.lexemes ∧
        (Expr.neg (.num "1200" ⟨4, 9⟩) ⟨2, 10⟩).Placed "2*-(1,200)" groupedProduct.lexemes := by
  have parsed : parse "2*-(1,200)" = .ok groupedProduct := by rfl
  have part : (Expr.neg (.num "1200" ⟨4, 9⟩) ⟨2, 10⟩).Occurs groupedProduct.toExpr := .right .here
  exact ⟨parsed, part, toExpr_placed parsed part⟩

end Calculator
