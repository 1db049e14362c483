import Calculator.Proofs.Lines

/-!
# Trees — spans and extents

The extent of lexemes reaches from the first byte of the first to the last byte of the last.  A tree
of a line has the extent of its lexemes as its span.  The expression of the tree has not: groups
leave no node, so that an operation on a group reaches no further than into the group.

* `Tree.span_eq_extent`: the span of a tree is the extent of its lexemes.
* `Tree.reaches`: what the expression of a tree covers of it.
* `toExpr_span_eq_iff`: **an operation covers its chain if and only if no group without a minus sign
  stands at an end of the chain**.
* `toExpr_span_groupedSum`: the sum in `(1)+2` does not cover its first byte.
-/

namespace Calculator

/-! ### Extents -/

attribute [ext] Span

/-- From the first byte of the first lexeme to the last byte of the last. -/
def extentOf (xs : List Lexeme) : Span :=
  ⟨(xs.head?.map fun x => x.span.start).getD 0, (xs.getLast?.map fun x => x.span.stop).getD 0⟩

theorem extentOf_append {xs ys : List Lexeme} (hx : xs ≠ []) (hy : ys ≠ []) :
    extentOf (xs ++ ys) = ⟨(extentOf xs).start, (extentOf ys).stop⟩ := by
  rw [extentOf, List.head?_append_of_ne_nil _ hx, List.getLast?_append_of_ne_nil _ hy]
  rfl

theorem extentOf_cons (x : Lexeme) {xs : List Lexeme} (hx : xs ≠ []) :
    extentOf (x :: xs) = ⟨x.span.start, (extentOf xs).stop⟩ :=
  extentOf_append (List.cons_ne_nil x []) hx

/-- What covers two spans reaches from the first to the second, if they are in this order. -/
theorem Span.cover_eq_of_le {a b : Span} (start : a.start ≤ b.start) (stop : a.stop ≤ b.stop) :
    a.cover b = ⟨a.start, b.stop⟩ := by
  rw [cover, Nat.min_eq_left start, Nat.max_eq_right stop]

/-- Lexemes have a byte, and they stand one behind the other. -/
structure InOrder (xs : List Lexeme) : Prop where
  nonempty : ∀ x ∈ xs, x.span.start < x.span.stop
  ordered : xs.Pairwise fun x y => x.span.stop ≤ y.span.start

namespace InOrder

variable {x : Lexeme} {xs ys : List Lexeme}

theorem of_infix (h : InOrder ys) (sub : xs <:+: ys) : InOrder xs where
  nonempty x mem := h.nonempty x (sub.subset mem)
  ordered := h.ordered.sublist sub.sublist

theorem of_append (h : InOrder (xs ++ ys)) : InOrder xs ∧ InOrder ys :=
  ⟨h.of_infix (List.prefix_append xs ys).isInfix, h.of_infix (List.suffix_append xs ys).isInfix⟩

/-- What stands behind starts where the other ends, or later. -/
theorem stop_le_start (h : InOrder (xs ++ ys)) (hx : xs ≠ []) (hy : ys ≠ []) :
    (extentOf xs).stop ≤ (extentOf ys).start := by
  obtain ⟨front, x, rfl⟩ := List.eq_nil_or_concat xs |>.resolve_left hx
  obtain ⟨y, rest, rfl⟩ := List.exists_cons_of_ne_nil hy
  have apart := (List.pairwise_append.mp h.ordered).2.2
  simpa [extentOf] using apart x (by simp) y (by simp)

theorem of_cons (h : InOrder (x :: xs)) : InOrder xs :=
  h.of_infix (List.suffix_cons x xs).isInfix

theorem stop_le_of_cons (h : InOrder (x :: xs)) (hx : xs ≠ []) :
    x.span.stop ≤ (extentOf xs).start := by
  have h : InOrder ([x] ++ xs) := h
  exact h.stop_le_start (List.cons_ne_nil x []) hx

theorem start_lt_stop (h : InOrder xs) (hx : xs ≠ []) :
    (extentOf xs).start < (extentOf xs).stop := by
  induction xs with
  | nil => contradiction
  | cons x rest ih =>
      have first : x.span.start < x.span.stop := h.nonempty x List.mem_cons_self
      rcases eq_or_ne rest [] with rfl | more
      · exact first
      · have behind : x.span.stop ≤ (extentOf rest).start := h.stop_le_of_cons more
        have last := ih h.of_cons more
        rw [extentOf_cons x more]
        show x.span.start < (extentOf rest).stop
        omega

end InOrder

/-- The lexemes of a line are in order. -/
theorem Tiled.inOrder {line : List Char} {start stop : Nat} {xs : List Lexeme}
    (h : Tiled line start stop xs) : InOrder xs where
  nonempty x mem := (h.bounds x mem).2.1
  ordered := h.ordered

/-! ### Trees whose lexemes are in order -/

namespace Tree

variable {r : Rule}

/-- From the first byte of the tree to its last. -/
def extent (t : Tree r) : Span := extentOf t.lexemes

theorem extent_group (opening : Span) (inner : ExprTree) (closing : Span) :
    (group opening inner closing).extent = ⟨opening.start, closing.stop⟩ := by
  rw [extent, lexemes, ← List.cons_append]
  exact extentOf_append (List.cons_ne_nil _ _) (List.cons_ne_nil _ _)

theorem extent_negated (minus : Span) (operand : Tree .primary) :
    (negated minus operand).extent = ⟨minus.start, operand.extent.stop⟩ :=
  extentOf_cons _ operand.lexemes_ne_nil

theorem extent_link {l : Level} (left : Tree (.chain l)) (op : Operator) (binds : op.level = l)
    (sign : Span) (right : Tree l.operand) :
    (link left op binds sign right).extent = ⟨left.extent.start, right.extent.stop⟩ := by
  rw [extent, lexemes, List.append_cons, extentOf_append (by simp) right.lexemes_ne_nil,
    extentOf_append left.lexemes_ne_nil (List.cons_ne_nil _ _)]
  rfl

/-- A group is in order: its opening parenthesis, what is inside, its closing parenthesis. -/
theorem inOrder_group {opening : Span} {inner : ExprTree} {closing : Span}
    (h : InOrder (group opening inner closing).lexemes) : InOrder inner.lexemes ∧
      opening.start < opening.stop ∧ opening.stop ≤ inner.extent.start ∧
      inner.extent.stop ≤ closing.start ∧ closing.start < closing.stop := by
  have some := inner.lexemes_ne_nil
  have behind := h.of_cons
  have front : InOrder (⟨.lparen, opening⟩ :: inner.lexemes) := by
    rw [lexemes, ← List.cons_append] at h
    exact h.of_append.1
  exact ⟨behind.of_append.1, h.nonempty _ List.mem_cons_self,
    front.stop_le_of_cons some,
    behind.stop_le_start some (List.cons_ne_nil _ _),
    behind.nonempty ⟨.rparen, closing⟩ (by simp)⟩

/-- So is a negated primary, behind its minus sign. -/
theorem inOrder_negated {minus : Span} {operand : Tree .primary}
    (h : InOrder (negated minus operand).lexemes) : InOrder operand.lexemes ∧
      minus.start < minus.stop ∧ minus.stop ≤ operand.extent.start :=
  ⟨h.of_cons, h.nonempty _ List.mem_cons_self, h.stop_le_of_cons operand.lexemes_ne_nil⟩

/-- The sign of an operator stands between its operands. -/
theorem sign_between {l : Level} {left : Tree (.chain l)} {op : Operator} {binds : op.level = l}
    {sign : Span} {right : Tree l.operand} (h : InOrder (link left op binds sign right).lexemes) :
    left.extent.stop ≤ sign.start ∧ sign.start < sign.stop ∧ sign.stop ≤ right.extent.start := by
  have behind := h.of_append.2
  have operator : sign.start < sign.stop := behind.nonempty ⟨op.token, sign⟩ List.mem_cons_self
  exact ⟨h.stop_le_start left.lexemes_ne_nil (List.cons_ne_nil _ _), operator,
    behind.stop_le_of_cons right.lexemes_ne_nil⟩

/-- And the two operands are in order. -/
theorem inOrder_link {l : Level} {left : Tree (.chain l)} {op : Operator} {binds : op.level = l}
    {sign : Span} {right : Tree l.operand} (h : InOrder (link left op binds sign right).lexemes) :
    InOrder left.lexemes ∧ InOrder right.lexemes ∧ left.extent.stop ≤ right.extent.start := by
  obtain ⟨front, operator, behind⟩ := sign_between h
  exact ⟨h.of_append.1, h.of_append.2.of_cons, by omega⟩

theorem start_lt_stop {t : Tree r} (h : InOrder t.lexemes) : t.extent.start < t.extent.stop :=
  h.start_lt_stop t.lexemes_ne_nil

/-! ### Spans of trees -/

/-- The tree reaches from its first byte to its last, and its first operand starts it. -/
theorem spans_eq_extent {t : Tree r} (h : InOrder t.lexemes) : t.span = t.extent ∧
    t.spans.1.start = t.extent.start ∧ t.spans.1.stop ≤ t.extent.stop := by
  -- what is not a chain with operators is its own first operand
  have single {r : Rule} {t : Tree r} (first : t.spans.1 = t.span) (span : t.span = t.extent) :
      t.span = t.extent ∧ t.spans.1.start = t.extent.start ∧ t.spans.1.stop ≤ t.extent.stop := by
    rw [first, span]
    exact ⟨rfl, rfl, Nat.le_refl _⟩
  induction t with
  | number text span => exact single rfl rfl
  | group opening inner closing ih =>
      obtain ⟨within, open_lt, front, back, close_lt⟩ := inOrder_group h
      have inside := start_lt_stop within
      refine single rfl ?_
      rw [span_group, extent_group]
      exact Span.cover_eq_of_le (by omega) (by omega)
  | plain operand ih => exact ih h
  | negated minus operand ih =>
      obtain ⟨within, sign, front⟩ := inOrder_negated h
      have inside := start_lt_stop within
      refine single rfl ?_
      rw [span_negated, (ih within).1, extent_negated]
      exact Span.cover_eq_of_le (by omega) (by omega)
  | head operand ih => exact single rfl (ih h).1
  | link left op binds sign right ihl ihr =>
      obtain ⟨orderL, orderR, apart⟩ := inOrder_link h
      obtain ⟨-, start, stop⟩ := ihl orderL
      have insideL := start_lt_stop orderL
      have insideR := start_lt_stop orderR
      rw [span_link, (ihr orderR).1, extent_link,
        Span.cover_eq_of_le (a := left.spans.1) (by omega) (by omega), start]
      refine ⟨rfl, start, ?_⟩
      show left.spans.1.stop ≤ right.extent.stop
      omega

/-- A tree reaches from the first byte of its lexemes to the last. -/
theorem span_eq_extent {t : Tree r} (h : InOrder t.lexemes) : t.span = t.extent :=
  (spans_eq_extent h).1

/-! ### Spans of expressions -/

/-- Whether a group starts the tree. -/
def opensWithGroup {r : Rule} : Tree r → Bool
  | .number _ _ => false
  | .group _ _ _ => true
  | .plain operand => operand.opensWithGroup
  | .negated _ _ => false
  | .head operand => operand.opensWithGroup
  | .link left _ _ _ _ => left.opensWithGroup

/-- Whether a group without a minus sign ends the tree. -/
def closesWithGroup {r : Rule} : Tree r → Bool
  | .number _ _ => false
  | .group _ _ _ => true
  | .plain operand => operand.closesWithGroup
  | .negated _ _ => false
  | .head operand => operand.closesWithGroup
  | .link _ _ _ _ right => right.closesWithGroup

/-- What the expression of a tree covers of it: all but the groups at its ends, of which it covers
what is inside. -/
structure Reaches (t : Tree r) : Prop where
  start_le : t.extent.start ≤ t.toExpr.span.start
  start_lt_stop : t.toExpr.span.start < t.toExpr.span.stop
  stop_le : t.toExpr.span.stop ≤ t.extent.stop
  start_eq_iff : t.toExpr.span.start = t.extent.start ↔ t.opensWithGroup = false
  stop_eq_iff : t.toExpr.span.stop = t.extent.stop ↔ t.closesWithGroup = false

/-- What is no group, and is no chain that ends in one, is covered. -/
theorem Reaches.of_eq {t : Tree r} (h : InOrder t.lexemes) (whole : t.toExpr.span = t.extent)
    (opens : t.opensWithGroup = false) (closes : t.closesWithGroup = false) : t.Reaches where
  start_le := by rw [whole]
  start_lt_stop := by
    rw [whole]
    exact Tree.start_lt_stop h
  stop_le := by rw [whole]
  start_eq_iff := iff_of_true (by rw [whole]) opens
  stop_eq_iff := iff_of_true (by rw [whole]) closes

theorem reaches {t : Tree r} (h : InOrder t.lexemes) : t.Reaches := by
  induction t with
  | number text span => exact .of_eq h rfl rfl rfl
  | group opening inner closing ih =>
      obtain ⟨within, open_lt, front, back, close_lt⟩ := inOrder_group h
      obtain ⟨start_le, inside, stop_le, -, -⟩ := ih within
      have start : opening.start < inner.toExpr.span.start := by omega
      have stop : inner.toExpr.span.stop < closing.stop := by omega
      refine ⟨?_, inside, ?_, ?_, ?_⟩ <;> rw [extent_group]
      · exact Nat.le_of_lt start
      · exact Nat.le_of_lt stop
      · exact iff_of_false (Nat.ne_of_gt start) nofun
      · exact iff_of_false (Nat.ne_of_lt stop) nofun
  | plain operand ih =>
      obtain ⟨start_le, inside, stop_le, start_iff, stop_iff⟩ := ih h
      exact ⟨start_le, inside, stop_le, start_iff, stop_iff⟩
  | negated minus operand => exact .of_eq h (span_eq_extent h) rfl rfl
  | head operand ih =>
      obtain ⟨start_le, inside, stop_le, start_iff, stop_iff⟩ := ih h
      exact ⟨start_le, inside, stop_le, start_iff, stop_iff⟩
  | link left op binds sign right ihl ihr =>
      obtain ⟨orderL, orderR, apart⟩ := inOrder_link h
      obtain ⟨startL, insideL, stopL, start_iff, -⟩ := ihl orderL
      obtain ⟨startR, insideR, stopR, -, stop_iff⟩ := ihr orderR
      have covers : (link left op binds sign right).toExpr.span
          = ⟨left.toExpr.span.start, right.toExpr.span.stop⟩ :=
        Span.cover_eq_of_le (by omega) (by omega)
      refine ⟨?_, ?_, ?_, ?_, ?_⟩ <;> rw [covers]
      · exact extent_link left op binds sign right ▸ startL
      · show left.toExpr.span.start < right.toExpr.span.stop
        omega
      · exact extent_link left op binds sign right ▸ stopR
      · exact extent_link left op binds sign right ▸ start_iff
      · exact extent_link left op binds sign right ▸ stop_iff

/-! ### Chains of a line -/

/-- The tree is a part of another, or the whole of it.  A chain has its shorter chains, from its
start to one of its operands, as parts. -/
inductive Occurs {r : Rule} (c : Tree r) : {r' : Rule} → Tree r' → Prop where
  | here : Occurs c c
  | group {opening closing : Span} {inner : ExprTree} (h : Occurs c inner) :
      Occurs c (.group opening inner closing)
  | plain {operand : Tree .primary} (h : Occurs c operand) : Occurs c (.plain operand)
  | negated {minus : Span} {operand : Tree .primary} (h : Occurs c operand) :
      Occurs c (.negated minus operand)
  | head {l : Level} {operand : Tree l.operand} (h : Occurs c operand) :
      Occurs c (.head (l := l) operand)
  | left {l : Level} {left : Tree (.chain l)} {op : Operator} {binds : op.level = l} {sign : Span}
      {right : Tree l.operand} (h : Occurs c left) : Occurs c (.link left op binds sign right)
  | right {l : Level} {left : Tree (.chain l)} {op : Operator} {binds : op.level = l} {sign : Span}
      {right : Tree l.operand} (h : Occurs c right) : Occurs c (.link left op binds sign right)

/-- The lexemes of a part stand together in the lexemes of the whole. -/
theorem Occurs.lexemes_infix {r' : Rule} {c : Tree r} {t : Tree r'} (h : Occurs c t) :
    c.lexemes <:+: t.lexemes := by
  induction h with
  | here => exact List.infix_refl _
  | group _ ih => exact ih.trans ⟨[_], [_], rfl⟩
  | plain _ ih => exact ih
  | negated _ ih => exact ih.trans (List.suffix_cons _ _).isInfix
  | head _ ih => exact ih
  | left _ ih => exact ih.trans (List.prefix_append _ _).isInfix
  | right _ ih => exact ih.trans ((List.suffix_cons _ _).trans (List.suffix_append _ _)).isInfix

end Tree

/-- **What an operation covers.**  Every part of the tree of a line has the extent of its lexemes as
its span.  Its expression never reaches further, and has the same span if and only if no group
without a minus sign starts the part or ends it; they start in one column if and only if no such
group starts it. -/
theorem toExpr_span_eq_iff {line : String} {t : ExprTree} (h : parse line = .ok t) {r : Rule}
    {c : Tree r} (part : c.Occurs t) :
    c.span = c.extent ∧
      (c.toExpr.span = c.span ↔ c.opensWithGroup = false ∧ c.closesWithGroup = false) ∧
      (c.toExpr.column = c.span.column ↔ c.opensWithGroup = false) ∧
      c.span.start ≤ c.toExpr.span.start ∧ c.toExpr.span.stop ≤ c.span.stop := by
  have ordered : InOrder c.lexemes :=
    (tiled_of_scan (scan_of_parse h).1).inOrder.of_infix part.lexemes_infix
  have span := Tree.span_eq_extent ordered
  obtain ⟨start_le, -, stop_le, start_iff, stop_iff⟩ := Tree.reaches ordered
  rw [span, ← start_iff, ← stop_iff]
  exact ⟨rfl, Span.ext_iff, Nat.add_right_cancel_iff, start_le, stop_le⟩

/-- The tree of `(1)+2`. -/
def groupedSum : ExprTree :=
  .link (.head (.head (.head (.plain
    (.group ⟨0, 1⟩ (.head (.head (.head (.plain (.number "1" ⟨1, 2⟩))))) ⟨2, 3⟩)))))
    .add rfl ⟨3, 4⟩ (.head (.head (.plain (.number "2" ⟨4, 5⟩))))

/-- The sum starts with its group, and its expression starts inside the group. -/
theorem toExpr_span_groupedSum : parse "(1)+2" = .ok groupedSum ∧ groupedSum.links = 1 ∧
    groupedSum.span = ⟨0, 5⟩ ∧ groupedSum.toExpr.span = ⟨1, 5⟩ ∧
      groupedSum.toExpr.column ≠ groupedSum.span.column :=
  ⟨by rfl, rfl, by decide, by decide, by decide⟩

/-- The tree of `-(1)+2`. -/
def negatedSum : ExprTree :=
  .link (.head (.head (.head (.negated ⟨0, 1⟩
    (.group ⟨1, 2⟩ (.head (.head (.head (.plain (.number "1" ⟨2, 3⟩))))) ⟨3, 4⟩)))))
    .add rfl ⟨4, 5⟩ (.head (.head (.plain (.number "2" ⟨5, 6⟩))))

/-- With a minus sign in front of the group, the two agree. -/
theorem toExpr_span_negatedSum : parse "-(1)+2" = .ok negatedSum ∧
    negatedSum.toExpr.span = negatedSum.span ∧ negatedSum.span = ⟨0, 6⟩ := by
  have parsed : parse "-(1)+2" = .ok negatedSum := by rfl
  have spans := (toExpr_span_eq_iff parsed .here).2.1
  exact ⟨parsed, spans.mpr ⟨by decide, by decide⟩, by decide⟩

end Calculator
