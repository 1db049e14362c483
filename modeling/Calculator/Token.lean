import Calculator.Operator
import Calculator.Span

/-!
# Tokens

The words of the language.  A numeral keeps its text as written, separators included.

* `Operator.operator?_token`: each operator is read off the token that writes it.
-/

namespace Calculator

/-- A word of a line. -/
inductive Token where
  /-- A numeral, as written. -/
  | number (text : String)
  /-- The power sign `**`. -/
  | doubleStar
  | plus
  | minus
  | star
  | slash
  | lparen
  | rparen
  /-- A run of blanks. -/
  | blank
deriving DecidableEq, Repr, Inhabited

namespace Token

/-- The token as messages show it; blanks are shown as nothing. -/
def text : Token → String
  | .number text => text
  | .doubleStar => "**"
  | .plus => "+"
  | .minus => "-"
  | .star => "*"
  | .slash => "/"
  | .lparen => "("
  | .rparen => ")"
  | .blank => ""

/-- The operator that a token stands for between two operands. -/
def operator? : Token → Option Operator
  | .plus => some .add
  | .minus => some .sub
  | .star => some .mul
  | .slash => some .div
  | .doubleStar => some .pow
  | _ => none

end Token

namespace Operator

/-- The token that writes the operator. -/
def token : Operator → Token
  | .add => .plus
  | .sub => .minus
  | .mul => .star
  | .div => .slash
  | .pow => .doubleStar

@[simp] theorem operator?_token (op : Operator) : op.token.operator? = some op := by
  cases op <;> rfl

@[simp] theorem text_token (op : Operator) : op.token.text = op.symbol := by
  cases op <;> rfl

end Operator

theorem Token.operator?_eq_some_iff {t : Token} {op : Operator} :
    t.operator? = some op ↔ t = op.token := by
  cases t <;> cases op <;> simp [Token.operator?, Operator.token]

/-- A token and where it stands. -/
structure Lexeme where
  token : Token
  span : Span
deriving DecidableEq, Repr, Inhabited

/-- The column at which a lexeme starts. -/
def Lexeme.column (x : Lexeme) : Nat := x.span.column

end Calculator
