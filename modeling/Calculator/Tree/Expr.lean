import Calculator.Expr
import Calculator.Tree

/-!
# Trees — the expression of a tree

Chains are folded to the left, groups leave no node, and separators are taken out of numerals.

* `Tree.height_toExpr_le`: the expression is no higher than the tree is deep.
-/

namespace Calculator

/-- A numeral without its separators. -/
def withoutSeparators (text : String) : String := String.ofList (text.toList.filter (· ≠ ','))

namespace Tree

/-- The expression that the tree stands for. -/
def toExpr {r : Rule} : Tree r → Expr
  | .number text span => .num (withoutSeparators text) span
  | .group _ inner _ => inner.toExpr
  | .plain operand => operand.toExpr
  | .negated minus operand => .neg operand.toExpr (minus.cover operand.span)
  | .head operand => operand.toExpr
  | .link left op _ _ right =>
      .binary left.toExpr op right.toExpr (left.toExpr.span.cover right.toExpr.span)

/-- The expression is no higher than the tree is deep. -/
theorem height_toExpr_le {r : Rule} (t : Tree r) : t.toExpr.height ≤ t.depth := by
  induction t with
  | number => simp [toExpr, Expr.height]
  | group _ _ _ ih => simp only [toExpr, depth_group]; omega
  | plain _ ih => simpa [toExpr] using ih
  | negated _ _ ih => simp only [toExpr, Expr.height, depth_negated]; omega
  | head _ ih => simpa [toExpr] using ih
  | link left _ _ _ right ihl ihr =>
      simp only [toExpr, Expr.height, depth_link]
      unfold depth at ihl
      omega

end Tree
end Calculator
