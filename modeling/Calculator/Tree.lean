import Calculator.Token

/-!
# Trees — the grammar

The grammar, with a chain of operands at each level:

    expr    := term   (("+" | "-") term)*
    term    := factor (("*" | "/") factor)*
    factor  := base   ("**" base)*
    base    := "-" primary | primary
    primary := number | "(" expr ")"

A value of `Tree r` is a derivation from the rule `r`: which lexemes it derives is `Tree.lexemes`,
and nothing else about the tokens is left to check.  A chain grows at its right end, so the
operator joined last is the outermost one, as left association asks.

* `Tree.lexemes_ne_nil`: no rule derives the empty list.
* `Tree.one_le_depth`: every tree has depth at least one.
-/

namespace Calculator

/-- A rule of the grammar. -/
inductive Rule where
  /-- A chain of operands joined by the operators of a level. -/
  | chain (level : Level)
  | base
  | primary
deriving DecidableEq, Repr

/-- The name of a rule in messages. -/
def Rule.name : Rule → String
  | .chain level => level.name
  | .base => "base"
  | .primary => "primary"

/-- The rule for the operands of a chain. -/
def Level.operand : Level → Rule
  | .expr => .chain .term
  | .term => .chain .factor
  | .factor => .base

/-- A derivation from a rule. -/
inductive Tree : Rule → Type where
  /-- A numeral, as written. -/
  | number (text : String) (span : Span) : Tree .primary
  /-- An expression between the parentheses at `opening` and `closing`. -/
  | group (opening : Span) (inner : Tree (.chain .expr)) (closing : Span) : Tree .primary
  /-- A primary on its own. -/
  | plain (operand : Tree .primary) : Tree .base
  /-- A primary after the minus sign at `minus`. -/
  | negated (minus : Span) (operand : Tree .primary) : Tree .base
  /-- A chain of one operand. -/
  | head {l : Level} (operand : Tree l.operand) : Tree (.chain l)
  /-- A chain with one operand more, after the operator at `sign`. -/
  | link {l : Level} (left : Tree (.chain l)) (op : Operator) (binds : op.level = l)
      (sign : Span) (right : Tree l.operand) : Tree (.chain l)

/-- The derivation of a whole expression. -/
abbrev ExprTree : Type := Tree (.chain .expr)

namespace Tree

variable {r : Rule}

/-- The lexemes that the tree derives, in order. -/
def lexemes {r : Rule} : Tree r → List Lexeme
  | .number text span => [⟨.number text, span⟩]
  | .group opening inner closing =>
      ⟨.lparen, opening⟩ :: (inner.lexemes ++ [⟨.rparen, closing⟩])
  | .plain operand => operand.lexemes
  | .negated minus operand => ⟨.minus, minus⟩ :: operand.lexemes
  | .head operand => operand.lexemes
  | .link left op _ sign right => left.lexemes ++ ⟨op.token, sign⟩ :: right.lexemes

/-! ### Spans -/

/-- The spans of the first operand and of the whole tree.  A chain reaches from its first operand
to its last; what is not a chain is its own first operand. -/
def spans {r : Rule} : Tree r → Span × Span
  | .number _ span => (span, span)
  | .group opening _ closing => (opening.cover closing, opening.cover closing)
  | .plain operand => operand.spans
  | .negated minus operand => (minus.cover operand.spans.2, minus.cover operand.spans.2)
  | .head operand => (operand.spans.2, operand.spans.2)
  | .link left _ _ _ right => (left.spans.1, left.spans.1.cover right.spans.2)

/-- The part of the line that the tree was read from. -/
def span (t : Tree r) : Span := t.spans.2

/-! ### Depth -/

/-- The number of operators in a chain, not counting those of its operands. -/
def links {r : Rule} : Tree r → Nat
  | .link left _ _ _ _ => left.links + 1
  | _ => 0

/-- The depth of the deepest operand of a chain; the depth of what is not a chain. -/
def deepest {r : Rule} : Tree r → Nat
  | .number _ _ => 1
  | .group _ inner _ => inner.deepest + inner.links + 1
  | .plain operand => operand.deepest
  | .negated _ operand => operand.deepest + 1
  | .head operand => operand.deepest + operand.links
  | .link left _ _ _ right => max left.deepest (right.deepest + right.links)

/-- How deep the tree nests: every operator of a chain, every minus sign and every group adds a
level. -/
def depth (t : Tree r) : Nat := t.deepest + t.links

/-! ### Text -/

/-- The text of a tree as `continuation`, the text of what follows in its chain, asks; a chain
without operators is shown as its operand. -/
def textWith {r : Rule} : Tree r → (continuation : Option String) → String
  | .number text _, _ => "\x7bnum: \"" ++ text ++ "\"\x7d"
  | .group _ inner _, _ => "(" ++ inner.textWith none ++ ")"
  | .plain operand, _ => operand.textWith none
  | .negated _ operand, _ => "\x7bneg: " ++ operand.textWith none ++ "\x7d"
  | .head operand, none => operand.textWith none
  | .head operand, some continuation =>
      "\x7bleft: " ++ operand.textWith none ++ ", continuation: " ++ continuation ++ "\x7d"
  | .link left op _ _ right, continuation =>
      left.textWith (some ("\x7bop: '" ++ op.symbol ++ "', right: " ++ right.textWith none
        ++ ", continuation: " ++ continuation.getD "nil" ++ "\x7d"))

/-- The tree as text: a chain is shown as its first operand and a continuation that nests to the
right. -/
def text (t : Tree r) : String := t.textWith none

/-! ### Equations -/

@[simp] theorem depth_number (text : String) (span : Span) : (number text span).depth = 1 := rfl

@[simp] theorem depth_group (opening : Span) (inner : ExprTree) (closing : Span) :
    (group opening inner closing).depth = inner.depth + 1 := rfl

@[simp] theorem depth_plain (operand : Tree .primary) : (plain operand).depth = operand.depth := by
  cases operand <;> rfl

@[simp] theorem depth_negated (minus : Span) (operand : Tree .primary) :
    (negated minus operand).depth = operand.depth + 1 := by
  cases operand <;> rfl

@[simp] theorem depth_head {l : Level} (operand : Tree l.operand) :
    (head operand).depth = operand.depth := rfl

theorem depth_link {l : Level} (left : Tree (.chain l)) (op : Operator) (binds : op.level = l)
    (sign : Span) (right : Tree l.operand) :
    (link left op binds sign right).depth
      = max left.deepest right.depth + left.links + 1 := rfl

@[simp] theorem span_number (text : String) (span : Span) : (number text span).span = span := rfl

@[simp] theorem span_group (opening : Span) (inner : ExprTree) (closing : Span) :
    (group opening inner closing).span = opening.cover closing := rfl

@[simp] theorem span_plain (operand : Tree .primary) : (plain operand).span = operand.span := rfl

@[simp] theorem span_negated (minus : Span) (operand : Tree .primary) :
    (negated minus operand).span = minus.cover operand.span := rfl

@[simp] theorem span_head {l : Level} (operand : Tree l.operand) :
    (head operand).span = operand.span := rfl

theorem span_link {l : Level} (left : Tree (.chain l)) (op : Operator) (binds : op.level = l)
    (sign : Span) (right : Tree l.operand) :
    (link left op binds sign right).span = left.spans.1.cover right.span := rfl

/-- Every rule derives at least one lexeme. -/
theorem lexemes_ne_nil (t : Tree r) : t.lexemes ≠ [] := by
  induction t with
  | number => simp [lexemes]
  | group => simp [lexemes]
  | plain _ ih => simpa [lexemes] using ih
  | negated => simp [lexemes]
  | head _ ih => simpa [lexemes] using ih
  | link => simp [lexemes]

/-- Every tree has a level. -/
theorem one_le_depth (t : Tree r) : 1 ≤ t.depth := by
  induction t with
  | number => exact Nat.le_refl 1
  | group => simp
  | plain _ ih => simpa using ih
  | negated => simp
  | head _ ih => simpa using ih
  | link => rw [depth_link]; omega

end Tree
end Calculator
