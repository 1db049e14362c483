/-!
# Faults — parse errors

Why a line is not an expression: the cause, its column, and the rules that were being matched
there, innermost first.
-/

namespace Calculator

/-- A rule that was being matched and the column at which it started. -/
structure Frame where
  rule : String
  column : Nat
deriving DecidableEq, Repr

/-- What is wrong with a line. -/
inductive ParseError.Cause where
  /-- No token starts with this text. -/
  | unexpectedCharacter (found : String)
  /-- A token that none of the alternatives starts with. -/
  | unexpectedToken (found : String) (expected : List String)
  /-- The line ends where one of the alternatives should start. -/
  | unexpectedEnd (expected : List String)
  /-- The group opened at `openColumn` is not closed; nothing is found at the end of a line. -/
  | unclosedGroup (found : Option String) (openColumn : Nat)
  /-- A whole expression is followed by another token. -/
  | trailingToken (found : String)
  /-- The line has no tokens. -/
  | empty
  /-- The expression nests more than `max` levels deep. -/
  | tooDeep (max : Nat)
deriving DecidableEq, Repr

/-- A fault of a line that keeps it from being an expression. -/
structure ParseError where
  cause : ParseError.Cause
  column : Nat
  trace : List Frame
deriving DecidableEq, Repr

namespace ParseError

/-- Alternatives in a sentence: `a`, `a or b`, `a, b or c`. -/
def alternatives : List String → String
  | [] => "more input"
  | [a] => a
  | [a, b] => a ++ " or " ++ b
  | a :: rest => a ++ ", " ++ alternatives rest

/-- What would have been accepted instead. -/
def Cause.expected : Cause → List String
  | .unexpectedToken _ expected => expected
  | .unexpectedEnd expected => expected
  | .unclosedGroup _ _ => ["')'"]
  | _ => []

/-- The cause in words, without a place. -/
def Cause.message : Cause → String
  | .unexpectedCharacter found => s!"Unexpected character '{found}'"
  | .unexpectedToken found expected => s!"Expected {alternatives expected}, found '{found}'"
  | .unexpectedEnd expected => s!"Expected {alternatives expected}, found end of input"
  | .unclosedGroup (some found) openColumn =>
      s!"Expected ')' to close '(' at column {openColumn}, found '{found}'"
  | .unclosedGroup none openColumn =>
      s!"Expected ')' to close '(' at column {openColumn}, found end of input"
  | .trailingToken found => s!"Extra input after expression: '{found}'"
  | .empty => "Nothing to evaluate"
  | .tooDeep max => s!"Expression nests more than {max} levels deep"

/-- A line of the trace, below the message. -/
def frameText (frame : Frame) : String :=
  s!"\n  while parsing {frame.rule} starting at column {frame.column}"

/-- The whole message: place, cause, and one line for each rule that was being matched. -/
def message (e : ParseError) : String :=
  s!"Error at column {e.column}: {e.cause.message}." ++ String.join (e.trace.map frameText)

end ParseError
end Calculator
