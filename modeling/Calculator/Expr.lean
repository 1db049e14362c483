import Calculator.Operator
import Calculator.Span

/-!
# Expressions

What a line says once its grammar is forgotten: numbers, negations and operations, each with the
part of the line it was read from.

* `Expr.nodes_neg`, `Expr.nodes_binary`: the nodes of an operation are those of its operands and its
  own, which comes last.
* `Expr.ofNodes?_nodes`: an expression is determined by its nodes in postfix order.
-/

namespace Calculator

/-- An arithmetic expression. -/
inductive Expr where
  /-- A numeral without separators. -/
  | num (text : String) (span : Span)
  /-- The negative of an operand. -/
  | neg (operand : Expr) (span : Span)
  /-- An operation on two operands. -/
  | binary (left : Expr) (op : Operator) (right : Expr) (span : Span)
deriving DecidableEq, Repr, Inhabited

namespace Expr

/-- The part of the line that the expression was read from. -/
def span : Expr → Span
  | .num _ span => span
  | .neg _ span => span
  | .binary _ _ _ span => span

/-- The column at which the expression starts. -/
def column (e : Expr) : Nat := e.span.column

/-- The height of the tree; a number has height one. -/
def height : Expr → Nat
  | .num _ _ => 1
  | .neg operand _ => operand.height + 1
  | .binary left _ right _ => max left.height right.height + 1

/-- The expression with parentheses around every negation and operation. -/
def text : Expr → String
  | .num text _ => text
  | .neg operand _ => "(-" ++ operand.text ++ ")"
  | .binary left op right _ => "(" ++ left.text ++ " " ++ op.symbol ++ " " ++ right.text ++ ")"

/-- A node of an expression, apart from its operands. -/
inductive Node where
  | num (text : String) (span : Span)
  | neg (span : Span)
  | binary (op : Operator) (span : Span)
deriving DecidableEq, Repr

/-- The nodes in postfix order, operands before what is done with them, in front of `rest`. -/
def nodesBefore : Expr → (rest : List Node) → List Node
  | .num text span, rest => .num text span :: rest
  | .neg operand span, rest => operand.nodesBefore (.neg span :: rest)
  | .binary left op right span, rest =>
      left.nodesBefore (right.nodesBefore (.binary op span :: rest))

/-- The nodes in postfix order. -/
def nodes (e : Expr) : List Node := e.nodesBefore []

theorem nodesBefore_eq (e : Expr) (rest : List Node) : e.nodesBefore rest = e.nodes ++ rest := by
  induction e generalizing rest with
  | num => rfl
  | neg operand span ih =>
      rw [nodes, nodesBefore, nodesBefore, ih (.neg span :: rest), ih [.neg span],
        List.append_assoc, List.singleton_append]
  | binary left op right span ihl ihr =>
      rw [nodes, nodesBefore, nodesBefore, ihl, ihl (right.nodesBefore _), ihr,
        ihr [.binary op span], List.append_assoc, List.append_assoc, List.singleton_append]

@[simp] theorem nodes_num (text : String) (span : Span) :
    (num text span).nodes = [.num text span] :=
  rfl

@[simp] theorem nodes_neg (operand : Expr) (span : Span) :
    (neg operand span).nodes = operand.nodes ++ [.neg span] :=
  operand.nodesBefore_eq _

@[simp] theorem nodes_binary (left : Expr) (op : Operator) (right : Expr) (span : Span) :
    (binary left op right span).nodes = left.nodes ++ (right.nodes ++ [.binary op span]) :=
  (left.nodesBefore_eq _).trans (congrArg _ (right.nodesBefore_eq _))

theorem nodes_subset_neg (operand : Expr) (span : Span) :
    operand.nodes ⊆ (neg operand span).nodes :=
  nodes_neg operand span ▸ List.subset_append_left _ _

theorem nodes_subset_left (left : Expr) (op : Operator) (right : Expr) (span : Span) :
    left.nodes ⊆ (binary left op right span).nodes :=
  nodes_binary left op right span ▸ List.subset_append_left _ _

theorem nodes_subset_right (left : Expr) (op : Operator) (right : Expr) (span : Span) :
    right.nodes ⊆ (binary left op right span).nodes :=
  nodes_binary left op right span ▸
    List.subset_append_of_subset_right _ (List.subset_append_left _ _)

/-- Puts the expressions of a stack together as the nodes say, latest first. -/
def assemble? : List Node → List Expr → Option (List Expr)
  | [], stack => some stack
  | .num text span :: rest, stack => assemble? rest (.num text span :: stack)
  | .neg span :: rest, operand :: stack => assemble? rest (.neg operand span :: stack)
  | .binary op span :: rest, right :: left :: stack =>
      assemble? rest (.binary left op right span :: stack)
  | _, _ => none

/-- The expression with the given nodes in postfix order. -/
def ofNodes? (nodes : List Node) : Option Expr :=
  match assemble? nodes [] with
  | some [e] => some e
  | _ => none

theorem assemble?_nodesBefore (e : Expr) (rest : List Node) (stack : List Expr) :
    assemble? (e.nodesBefore rest) stack = assemble? rest (e :: stack) := by
  induction e generalizing rest stack with
  | num => rfl
  | neg operand span ih => rw [nodesBefore, ih, assemble?]
  | binary left op right span ihl ihr => rw [nodesBefore, ihl, ihr, assemble?]

theorem ofNodes?_nodes (e : Expr) : ofNodes? e.nodes = some e := by
  rw [ofNodes?, nodes, assemble?_nodesBefore, assemble?]

end Expr
end Calculator
