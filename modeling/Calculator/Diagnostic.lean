import Calculator.EvalError
import Calculator.ParseError

/-!
# Faults — diagnostics

A fault together with its line, shown with a caret under the column of the fault.
-/

namespace Calculator

/-- Why a line has no result. -/
inductive Failure where
  /-- It is not an expression. -/
  | parsing (error : ParseError)
  /-- Its expression has no value. -/
  | evaluation (error : EvalError)
deriving DecidableEq, Repr

namespace Failure

/-- The column of the fault. -/
def column : Failure → Nat
  | .parsing e => e.column
  | .evaluation e => e.column

/-- The fault in words. -/
def message : Failure → String
  | .parsing e => e.message
  | .evaluation e => e.message

end Failure

/-- The characters that may end a line. -/
def isLineEnd (c : Char) : Bool := c = '\r' || c = '\n'

/-- A line without the line ends behind it. -/
def trimLineEnd (text : String) : String :=
  String.ofList (text.toList.reverse.dropWhile isLineEnd).reverse

/-- A fault and the line it is in. -/
structure Diagnostic where
  line : String
  failure : Failure
deriving DecidableEq, Repr

namespace Diagnostic

/-- The diagnostic of a fault in a text that may end in line ends. -/
def ofText (text : String) (failure : Failure) : Diagnostic := ⟨trimLineEnd text, failure⟩

/-- The column that the diagnostic points at. -/
def column (d : Diagnostic) : Nat := d.failure.column

/-- A blank as wide as the character. -/
def blankFor (c : Char) : Char := if c = '\t' then '\t' else ' '

/-- Blanks up to the column of the fault, and a caret. -/
def caretChars (d : Diagnostic) : List Char :=
  (d.line.toList.take (d.column - 1)).map blankFor ++ ['^']

/-- The line, the caret under it, and the fault in words. -/
def text (d : Diagnostic) : String :=
  d.line ++ "\n" ++ String.ofList d.caretChars ++ "\n" ++ d.failure.message

end Diagnostic
end Calculator
