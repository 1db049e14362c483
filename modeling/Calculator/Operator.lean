/-!
# Tokens — operators

The five binary operators and the three levels at which they bind.  The levels go from the
loosest, `expr`, over `term` to the tightest, `factor`; all of them associate to the left.
-/

namespace Calculator

/-- How tightly an operator binds. -/
inductive Level where
  /-- Addition and subtraction. -/
  | expr
  /-- Multiplication and division. -/
  | term
  /-- Powers. -/
  | factor
deriving DecidableEq, Repr

/-- The name under which a level appears in messages. -/
def Level.name : Level → String
  | .expr => "expr"
  | .term => "term"
  | .factor => "factor"

/-- An operator between two operands. -/
inductive Operator where
  | add
  | sub
  | mul
  | div
  | pow
deriving DecidableEq, Repr

namespace Operator

/-- The operator as it is written. -/
def symbol : Operator → String
  | .add => "+"
  | .sub => "-"
  | .mul => "*"
  | .div => "/"
  | .pow => "**"

/-- The level at which the operator binds. -/
def level : Operator → Level
  | .add => .expr
  | .sub => .expr
  | .mul => .term
  | .div => .term
  | .pow => .factor

end Operator
end Calculator
