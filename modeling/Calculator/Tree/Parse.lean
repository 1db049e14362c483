import Calculator.Token.Scan
import Calculator.Tree.Reading

/-!
# Trees — parsing a line

A line is an expression if reading its lexemes leaves nothing open and nothing over, and if it
does not nest too deep.

* `parseLexemes_lexemes`: a parsed tree derives the lexemes of its line, all of them.
* `parseLexemes_depth_le`: it nests at most `maxDepth` levels.
-/

namespace Calculator

/-- How deep an expression may nest. -/
def maxDepth : Nat := 1000

/-- Reads one chain of level `l` and returns it with the lexemes left over; `column` is where the
line ends. -/
def parseChain (column : Nat) (l : Level) (xs : List Lexeme) :
    Except ParseError (Tree (.chain l) × List Lexeme) :=
  Reading.run column (.chain l .done) xs

/-- The column of the first parenthesis that opens a group inside `max` others, `depth` of them
being open at the start.  A closing parenthesis without a group is passed over. -/
def deepGroup? (max : Nat) : (depth : Nat) → List Lexeme → Option Nat
  | _, [] => none
  | depth, x :: rest =>
    match x.token with
    | .lparen => if max < depth + 1 then some x.column else deepGroup? max (depth + 1) rest
    | .rparen => deepGroup? max (depth - 1) rest
    | _ => deepGroup? max depth rest

/-- The derivation of a whole line of `length` bytes from its lexemes. -/
def parseLexemes (xs : List Lexeme) (length : Nat) : Except ParseError ExprTree :=
  if xs.isEmpty then .error ⟨.empty, length + 1, []⟩
  else
    match deepGroup? maxDepth 0 xs with
    | some column => .error ⟨.tooDeep maxDepth, column, []⟩
    | none =>
      match parseChain (length + 1) .expr xs with
      | .error e => .error e
      | .ok (_, x :: _) => .error ⟨.trailingToken x.token.text, x.column, []⟩
      | .ok (t, []) =>
        if maxDepth < t.depth then .error ⟨.tooDeep maxDepth, t.span.column, []⟩ else .ok t

/-- The derivation of a line. -/
def parse (line : String) : Except ParseError ExprTree :=
  match scan line with
  | .error e => .error e
  | .ok xs => parseLexemes xs line.utf8ByteSize

/-! ### What is parsed -/

theorem parseChain_lexemes {column : Nat} {l : Level} {xs rest : List Lexeme}
    {t : Tree (.chain l)} (h : parseChain column l xs = .ok (t, rest)) : t.lexemes ++ rest = xs :=
  Reading.lexemes_run h

/-- A parsed tree derives the lexemes of its line. -/
theorem parseLexemes_lexemes {xs : List Lexeme} {length : Nat} {t : ExprTree}
    (h : parseLexemes xs length = .ok t) : t.lexemes = xs := by
  unfold parseLexemes at h
  split at h
  · cases h
  · split at h
    · cases h
    · split at h
      · cases h
      · cases h
      · rename_i t' ht
        split at h
        · cases h
        · cases h
          simpa using parseChain_lexemes ht

/-- A parsed tree nests at most `maxDepth` levels. -/
theorem parseLexemes_depth_le {xs : List Lexeme} {length : Nat} {t : ExprTree}
    (h : parseLexemes xs length = .ok t) : t.depth ≤ maxDepth := by
  unfold parseLexemes at h
  split at h
  · cases h
  · split at h
    · cases h
    · split at h
      · cases h
      · cases h
      · split at h
        · cases h
        · cases h
          omega

end Calculator
