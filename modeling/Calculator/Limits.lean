/-!
# Evaluation — limits

The settings of an evaluation: how precise quotients are, and how large exponents and results may
become.
-/

namespace Calculator

/-- What shapes quotients and bounds the work of an evaluation. -/
structure Limits where
  /-- The number of fractional digits that count in a quotient, at least. -/
  precision : UInt32 := 20
  /-- The largest exponent, up to its sign. -/
  maxExponent : UInt32 := 100000
  /-- The largest number of digits of a product or power, by an estimate made in advance. -/
  maxDigits : UInt64 := 1000000
deriving DecidableEq, Repr, Inhabited

/-- The limits that hold if nothing else is said. -/
def Limits.standard : Limits := {}

end Calculator
