import Calculator.Diagnostic
import Calculator.Evaluation
import Calculator.Tree.Expr
import Calculator.Tree.Parse

/-!
# Lines

A line is parsed and evaluated, and its value is written with separators.  Nothing is kept from
one line to the next.
-/

namespace Calculator

/-- The result of a line, or what is wrong with it.  Line ends behind the line do not count. -/
def answerLine (limits : Limits) (text : String) : Except Diagnostic String :=
  let line := trimLineEnd text
  match parse line with
  | .error e => .error (.ofText line (.parsing e))
  | .ok t =>
    match t.toExpr.evaluate limits with
    | .error e => .error (.ofText line (.evaluation e))
    | .ok d => .ok d.grouped

end Calculator
