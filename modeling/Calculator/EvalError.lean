/-!
# Faults — evaluation errors

Why an expression has no value: the cause and the column of the part that it lies in.
-/

namespace Calculator

/-- What keeps an expression from having a value. -/
inductive EvalError.Cause where
  /-- A divisor, or the base of a negative power, is zero. -/
  | divisionByZero (divisor : String)
  /-- An exponent is not an integer. -/
  | fractionalExponent (exponent : String)
  /-- An exponent is larger than `max`, up to its sign. -/
  | exponentTooLarge (exponent : String) (max : Nat)
  /-- A result may have `digits` digits, more than `max`. -/
  | resultTooLarge (digits max : Nat)
  /-- A result has more fractional digits than can be counted. -/
  | scaleOverflow
  /-- The text of a number is not a decimal. -/
  | invalidLiteral (text : String)
deriving DecidableEq, Repr

/-- A fault met while evaluating. -/
structure EvalError where
  cause : EvalError.Cause
  column : Nat
deriving DecidableEq, Repr

namespace EvalError

/-- The cause in words. -/
def Cause.message : Cause → String
  | .divisionByZero divisor => s!"Division by zero: '{divisor}' evaluates to 0."
  | .fractionalExponent exponent => s!"Exponent {exponent} is not an integer."
  | .exponentTooLarge exponent max =>
      s!"Exponent {exponent} is too large. Maximum magnitude is {max}."
  | .resultTooLarge digits max => s!"Result would have up to {digits} digits. Maximum is {max}."
  | .scaleOverflow => "Result has too many fractional digits to represent."
  | .invalidLiteral text => s!"Invalid number literal '{text}'."

/-- The whole message. -/
def message (e : EvalError) : String := s!"Error at column {e.column}: {e.cause.message}"

end EvalError
end Calculator
