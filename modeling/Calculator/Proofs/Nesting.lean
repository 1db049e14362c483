import Calculator.Proofs.Precedence
import Calculator.Proofs.Prefixes

/-!
# Trees — how deep reading and building nest

The rules that are open while lexemes are read are the calls of a descent through the grammar.  How
many there are depends on the open groups and on where reading stands among the rules, and the open
groups are those that the check in advance counts, stray closing parentheses included.

* `Reading.Reads.groups_eq`: the groups that are open in reading are those that the lexemes leave
  open.
* `length_openGroups_le`: lexemes that pass the check leave no more groups open than it allows.
* `Reading.count_expr`, `Reading.length_rules_le`: the open rules, counted by the open groups.
* `nesting_bounded`: **nesting is bounded**, in reading whatever lexemes pass the check, and in the
  expressions that are built.
-/

namespace Calculator

/-! ### Groups that lexemes leave open -/

/-- The groups that are open behind a lexeme, innermost first, where `groups` are open in front of
it.  A closing parenthesis without a group changes nothing. -/
def Lexeme.regroup (groups : List Span) (x : Lexeme) : List Span :=
  match x.token with
  | .lparen => x.span :: groups
  | .rparen => groups.tail
  | _ => groups

/-- The opening parentheses that lexemes leave open, innermost first. -/
def openGroups (xs : List Lexeme) : List Span := xs.foldl Lexeme.regroup []

/-- The check in advance counts the groups that are open. -/
theorem deepGroup?_cons_eq_none {max : Nat} {groups : List Span} {x : Lexeme} {xs : List Lexeme}
    (h : deepGroup? max groups.length (x :: xs) = none) (le : groups.length ≤ max) :
    (Lexeme.regroup groups x).length ≤ max ∧
      deepGroup? max (Lexeme.regroup groups x).length xs = none := by
  obtain ⟨token, span⟩ := x
  cases token with
  | lparen =>
      have counted : (if max < groups.length + 1 then some span.column
          else deepGroup? max (groups.length + 1) xs) = none := h
      split at counted
      · cases counted
      · rename_i room
        exact ⟨Nat.not_lt.mp room, counted⟩
  | rparen =>
      have shorter : groups.tail.length = groups.length - 1 := List.length_tail
      refine ⟨?_, ?_⟩
      · show groups.tail.length ≤ max
        omega
      · show deepGroup? max groups.tail.length xs = none
        rw [shorter]
        exact h
  | _ => exact ⟨le, h⟩

theorem length_foldl_regroup_le {max : Nat} {groups : List Span} {xs ys : List Lexeme}
    (h : deepGroup? max groups.length (xs ++ ys) = none) (le : groups.length ≤ max) :
    (xs.foldl Lexeme.regroup groups).length ≤ max := by
  induction xs generalizing groups with
  | nil => exact le
  | cons x xs ih =>
      obtain ⟨le, rest⟩ := deepGroup?_cons_eq_none h le
      exact ih rest le

/-- Lexemes that pass the check leave no more groups open than it allows, wherever they are cut. -/
theorem length_openGroups_le {max : Nat} {xs ys : List Lexeme}
    (h : deepGroup? max 0 (xs ++ ys) = none) : (openGroups xs).length ≤ max :=
  length_foldl_regroup_le h (Nat.zero_le _)

/-! ### Groups that are open in reading -/

namespace Reading

variable {goal r : Rule}

/-- The opening parentheses of the groups that are not closed, innermost first. -/
def groups : Reading goal → List Span
  | .chain _ p => p.groups
  | .base p => p.groups
  | .primary p => p.groups
  | .after _ p => p.groups

variable {s s' : Reading goal} {x : Lexeme} {xs : List Lexeme}

theorem groups_operand (l : Level) (p : Pending goal l.operand) :
    (operand l p).groups = p.groups := by
  cases l <;> rfl

theorem groups_descend (column : Nat) (l : Level) (p : Pending goal (.chain l)) :
    (p.descend column l).groups = p.groups := by
  cases l <;> rfl

theorem groups_atPrimary {expected : List String} {p : Pending goal .primary}
    (h : atPrimary expected p x = .next s) : s.groups = x.regroup p.groups := by
  obtain ⟨token, span⟩ := x
  cases token <;> cases h <;> rfl

theorem groups_atBase {p : Pending goal .base} (h : atBase p x = .next s) :
    s.groups = x.regroup p.groups := by
  obtain ⟨token, span⟩ := x
  cases token <;> cases h <;> rfl

/-- Behind a tree, a lexeme closes the innermost group, or changes no group. -/
theorem groups_behind {t : Tree r} {p : Pending goal r} (h : behind x t p = .next s) :
    s.groups = x.regroup p.groups := by
  have operator {l : Level} {op : Operator} {binds : op.level = l} {q : Pending goal l.operand}
      (hop : x.token.operatorAt? l = some ⟨op, binds⟩) :
      (operand l q).groups = x.regroup q.groups := by
    rw [groups_operand, Lexeme.regroup, eq_of_operatorAt? hop]
    cases op <;> rfl
  induction p with
  | done => cases h
  | first column outer ih =>
      rw [behind] at h
      split at h
      · rename_i hop
        cases h
        exact operator hop
      · exact ih h
  | right column left op binds sign outer ih =>
      rw [behind] at h
      split at h
      · rename_i hop
        cases h
        exact operator hop
      · exact ih h
  | plain column outer ih => exact ih h
  | negated minus outer ih => exact ih h
  | group opening outer ih =>
      rw [behind] at h
      split at h
      · rename_i close
        cases h
        rw [Lexeme.regroup, close]
        rfl
      · cases h

/-- A step opens and closes the groups that its lexeme does. -/
theorem groups_step (h : s.step x = .next s') : s'.groups = x.regroup s.groups := by
  cases s with
  | chain l p =>
      rw [groups_atBase h, groups_descend]
      rfl
  | base p => exact groups_atBase h
  | primary p => exact groups_atPrimary h
  | after t p => exact groups_behind h

/-- The groups that are open in reading are those that the lexemes leave open. -/
theorem Reads.groups_eq (h : s.Reads xs s') : s'.groups = xs.foldl Lexeme.regroup s.groups := by
  induction h with
  | nil => rfl
  | snoc _ step ih => rw [List.foldl_append, List.foldl_cons, List.foldl_nil, ← ih, groups_step step]

end Reading

/-! ### Open rules -/

/-- The rules that have started and are not complete, innermost first. -/
def Pending.rules {goal r : Rule} : Pending goal r → List Rule
  | .done => []
  | .first (l := l) _ outer => .chain l :: outer.rules
  | .right (l := l) _ _ _ _ _ outer => .chain l :: outer.rules
  | .plain _ outer => .base :: outer.rules
  | .negated _ outer => .base :: outer.rules
  | .group _ outer => .primary :: outer.rules

/-- An expression asks for the rules down to the one that is missing, and every open group asks for
all of them. -/
theorem Pending.length_rules {r : Rule} (p : Pending (.chain .expr) r) :
    p.rules.length + 1 = 5 * p.groups.length + r.strength := by
  induction p with
  | done => rfl
  | first _ outer ih | right _ _ _ _ _ outer ih =>
      rw [rules, groups, List.length_cons, ih, Level.strength_operand]
      rfl
  | plain _ outer ih | negated _ outer ih =>
      rw [rules, groups, List.length_cons, ih]
      rfl
  | group _ outer ih =>
      rw [rules, groups, List.length_cons, List.length_cons, ih]
      show 5 * outer.groups.length + 5 + 1 = 5 * (outer.groups.length + 1) + 1
      omega

/-- There is an expression around every open group, and one around all of them. -/
theorem Pending.count_expr {r : Rule} (p : Pending (.chain .expr) r) :
    (r :: p.rules).count (.chain .expr) = p.groups.length + 1 := by
  have operand_ne (l : Level) : l.operand ≠ .chain .expr := by cases l <;> nofun
  have primary_ne : Rule.primary ≠ .chain .expr := nofun
  induction p with
  | done => rfl
  | first _ outer ih | right _ _ _ _ _ outer ih =>
      rw [List.count_cons_of_ne (operand_ne _)]
      exact ih
  | plain _ outer ih | negated _ outer ih =>
      rw [List.count_cons_of_ne primary_ne]
      exact ih
  | group _ outer ih =>
      rw [List.count_cons_self, groups, List.length_cons, ← ih]
      rfl

namespace Reading

/-- The rules that have started and are not complete, or that start at the next lexeme, innermost
first. -/
def rules {goal : Rule} : Reading goal → List Rule
  | .chain l p => .chain l :: p.rules
  | .base p => .base :: p.rules
  | .primary p => .primary :: p.rules
  | .after _ p => p.rules

variable (s : Reading (.chain .expr))

theorem count_expr : s.rules.count (.chain .expr) = s.groups.length + 1 := by
  cases s with
  | chain l p => exact p.count_expr
  | base p => exact p.count_expr
  | primary p => exact p.count_expr
  | after t p =>
      have primary_ne : Rule.primary ≠ .chain .expr := nofun
      have count := p.count_expr
      rwa [List.count_cons_of_ne primary_ne] at count

theorem length_rules_le : s.rules.length ≤ 5 * (s.groups.length + 1) := by
  have bound {r : Rule} (p : Pending (.chain .expr) r) :
      (r :: p.rules).length ≤ 5 * (p.groups.length + 1) := by
    have strength : r.strength ≤ 5 := r.strength_le
    rw [List.length_cons, p.length_rules]
    omega
  cases s with
  | chain l p => exact bound p
  | base p => exact bound p
  | primary p => exact bound p
  | after t p => exact Nat.le_trans (Nat.le_succ _) (bound p)

end Reading

/-! ### The limit -/

theorem height_toExpr_le_maxDepth {xs : List Lexeme} {length : Nat} {t : ExprTree}
    (h : parseLexemes xs length = .ok t) : t.toExpr.height ≤ maxDepth :=
  Nat.le_trans t.height_toExpr_le (parseLexemes_depth_le h)

/-- **Nesting is bounded.**  An expression is no higher than its tree is deep, whatever the tree, so
that what is parsed is no higher than the limit.  And whatever lexemes pass the check in advance,
reading them never has more groups open than the limit says, one expression more than groups, and
five rules to an expression; the open groups are those that the lexemes leave open. -/
theorem nesting_bounded :
    (∀ (r : Rule) (t : Tree r), t.toExpr.height ≤ t.depth) ∧
      (∀ (xs : List Lexeme) (length : Nat) (t : ExprTree),
        parseLexemes xs length = .ok t → t.toExpr.height ≤ maxDepth) ∧
      (∀ (line : String) (t : ExprTree), parse line = .ok t → t.toExpr.height ≤ maxDepth) ∧
      ∀ (before after : List Lexeme) (s : Reading (.chain .expr)),
        deepGroup? maxDepth 0 (before ++ after) = none →
          (Reading.chain .expr .done).Reads before s →
            s.groups = openGroups before ∧ s.groups.length ≤ maxDepth ∧
              s.rules.count (.chain .expr) ≤ maxDepth + 1 ∧
              s.rules.length ≤ 5 * (maxDepth + 1) := by
  refine ⟨fun r t => t.height_toExpr_le, fun _ _ _ => height_toExpr_le_maxDepth,
    fun line t h => ?_, fun before after s flat reads => ?_⟩
  · rw [parse] at h
    split at h
    · cases h
    · exact height_toExpr_le_maxDepth h
  · have groups : s.groups = openGroups before := reads.groups_eq
    have few : s.groups.length ≤ maxDepth := by
      rw [groups]
      exact length_openGroups_le flat
    refine ⟨groups, few, ?_, ?_⟩
    · rw [s.count_expr]
      exact Nat.add_le_add_right few 1
    · exact Nat.le_trans s.length_rules_le (Nat.mul_le_mul_left 5 (Nat.add_le_add_right few 1))

end Calculator
