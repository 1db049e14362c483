import Calculator.ParseError
import Calculator.Tree

/-!
# Trees — pending rules

A derivation that is read from left to right is, at any time, a tree with one place still to
fill and nothing to the right of it.  `Pending goal r` is such a tree: it derives `goal` as soon
as a tree of `r` takes the place.  It remembers the column at which each open rule started, for
the trace of an error.

What a pending tree shows is what was read (`Pending.lexemes`), the rules that are open, innermost
first (`Pending.frames`), and the groups among them (`Pending.groups`).
-/

namespace Calculator

/-- A tree of `goal` without its last part, a tree of the second rule. -/
inductive Pending (goal : Rule) : Rule → Type where
  /-- Nothing is read yet. -/
  | done : Pending goal goal
  /-- A chain that started at `column`; its first operand is missing. -/
  | first {l : Level} (column : Nat) (outer : Pending goal (.chain l)) : Pending goal l.operand
  /-- A chain that started at `column`; the operand after its last operator is missing. -/
  | right {l : Level} (column : Nat) (left : Tree (.chain l)) (op : Operator)
      (binds : op.level = l) (sign : Span) (outer : Pending goal (.chain l)) :
      Pending goal l.operand
  /-- A base that started at `column`, without a minus sign. -/
  | plain (column : Nat) (outer : Pending goal .base) : Pending goal .primary
  /-- A base that started with a minus sign. -/
  | negated (minus : Span) (outer : Pending goal .base) : Pending goal .primary
  /-- A group that is not closed. -/
  | group (opening : Span) (outer : Pending goal .primary) : Pending goal (.chain .expr)

namespace Pending

variable {goal r : Rule}

/-- The lexemes before the missing part. -/
def lexemes {r : Rule} : Pending goal r → List Lexeme
  | .done => []
  | .first _ outer => outer.lexemes
  | .right _ left op _ sign outer => outer.lexemes ++ (left.lexemes ++ [⟨op.token, sign⟩])
  | .plain _ outer => outer.lexemes
  | .negated minus outer => outer.lexemes ++ [⟨.minus, minus⟩]
  | .group opening outer => outer.lexemes ++ [⟨.lparen, opening⟩]

/-- The open rules, innermost first, with the columns at which they started. -/
def frames {r : Rule} : Pending goal r → List Frame
  | .done => []
  | .first (l := l) column outer => ⟨l.name, column⟩ :: outer.frames
  | .right (l := l) column _ _ _ _ outer => ⟨l.name, column⟩ :: outer.frames
  | .plain column outer => ⟨Rule.base.name, column⟩ :: outer.frames
  | .negated minus outer => ⟨Rule.base.name, minus.column⟩ :: outer.frames
  | .group opening outer => ⟨Rule.primary.name, opening.column⟩ :: outer.frames

/-- The opening parentheses of the groups that are not closed, innermost first. -/
def groups {r : Rule} : Pending goal r → List Span
  | .done => []
  | .first _ outer => outer.groups
  | .right _ _ _ _ _ outer => outer.groups
  | .plain _ outer => outer.groups
  | .negated _ outer => outer.groups
  | .group opening outer => opening :: outer.groups

/-- Opens, at `column`, the rules that a chain of level `l` starts with, down to the base. -/
def descend (column : Nat) : (l : Level) → Pending goal (.chain l) → Pending goal .base
  | .factor, p => .first (l := .factor) column p
  | .term, p => .first (l := .factor) column (.first (l := .term) column p)
  | .expr, p =>
      .first (l := .factor) column (.first (l := .term) column (.first (l := .expr) column p))

end Pending
end Calculator
