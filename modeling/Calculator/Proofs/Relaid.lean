import Calculator.Proofs.Lines
import Calculator.Proofs.Results

/-!
# Trees — the same tokens in another line

Lexemes are relaid by a function that tells where a byte of one line is in another; numerals lose
their separators.  Reading compares no places and computes none, so that it goes the same way for
lexemes that are relaid, and what it leads to is relaid, too.

* `Reading.step_relaid`, `Reading.finish_relaid`, `Reading.run_relaid`: reading relaid lexemes.
* `Tree.toExpr_relaid`: the expression of a relaid tree, if the order of the bytes is kept.
* `evaluateLexemes_relaid`: **what relaid lexemes lead to** is the same value, or the same fault in
  its new place.
-/

namespace Calculator

/-! ### Relaid lexemes -/

/-- The token with the separators of a numeral taken out. -/
def Token.plain : Token → Token
  | .number text => .number (withoutSeparators text)
  | token => token

/-- The lexeme, without separators, in another line. -/
def Lexeme.relaid (f : Nat → Nat) (x : Lexeme) : Lexeme := ⟨x.token.plain, x.span.relaid f⟩

/-- The derivation of the relaid lexemes. -/
def Tree.relaid (f : Nat → Nat) {r : Rule} : Tree r → Tree r
  | .number text span => .number (withoutSeparators text) (span.relaid f)
  | .group opening inner closing =>
      .group (opening.relaid f) (inner.relaid f) (closing.relaid f)
  | .plain operand => .plain (operand.relaid f)
  | .negated minus operand => .negated (minus.relaid f) (operand.relaid f)
  | .head operand => .head (operand.relaid f)
  | .link left op binds sign right =>
      .link (left.relaid f) op binds (sign.relaid f) (right.relaid f)

/-- The pending tree, of the relaid lexemes. -/
def Pending.relaid (f : Nat → Nat) {goal r : Rule} : Pending goal r → Pending goal r
  | .done => .done
  | .first column outer => .first (columnAt f column) (outer.relaid f)
  | .right column left op binds sign outer =>
      .right (columnAt f column) (left.relaid f) op binds (sign.relaid f) (outer.relaid f)
  | .plain column outer => .plain (columnAt f column) (outer.relaid f)
  | .negated minus outer => .negated (minus.relaid f) (outer.relaid f)
  | .group opening outer => .group (opening.relaid f) (outer.relaid f)

/-- The reading of the relaid lexemes. -/
def Reading.relaid (f : Nat → Nat) {goal : Rule} : Reading goal → Reading goal
  | .chain l p => .chain l (p.relaid f)
  | .base p => .base (p.relaid f)
  | .primary p => .primary (p.relaid f)
  | .after t p => .after (t.relaid f) (p.relaid f)

/-- The rule that was being matched, and the new column at which it started. -/
def Frame.relaid (f : Nat → Nat) (frame : Frame) : Frame := ⟨frame.rule, columnAt f frame.column⟩

/-- The cause with the separators of numerals taken out, and the open group in its new place. -/
def ParseError.Cause.relaid (f : Nat → Nat) : ParseError.Cause → ParseError.Cause
  | .unexpectedCharacter found => .unexpectedCharacter found
  | .unexpectedToken found expected => .unexpectedToken (withoutSeparators found) expected
  | .unexpectedEnd expected => .unexpectedEnd expected
  | .unclosedGroup found column =>
      .unclosedGroup (found.map withoutSeparators) (columnAt f column)
  | .trailingToken found => .trailingToken (withoutSeparators found)
  | .empty => .empty
  | .tooDeep max => .tooDeep max

/-- The fault, as it is met in the relaid lexemes. -/
def ParseError.relaid (f : Nat → Nat) (e : ParseError) : ParseError :=
  ⟨e.cause.relaid f, columnAt f e.column, e.trace.map (Frame.relaid f)⟩

/-- The fault of the line of the relaid lexemes. -/
def Failure.relaid (f : Nat → Nat) : Failure → Failure
  | .parsing e => .parsing (e.relaid f)
  | .evaluation e => .evaluation (e.relaid f)

/-- What a relaid lexeme leads to. -/
def Step.relaid (f : Nat → Nat) {goal : Rule} : Step goal → Step goal
  | .next s => .next (s.relaid f)
  | .stop t => .stop (t.relaid f)
  | .fail e => .fail (e.relaid f)

namespace Token

theorem text_plain (token : Token) : token.plain.text = withoutSeparators token.text := by
  cases token with
  | number text => rfl
  | _ => decide

theorem operatorAt?_plain (token : Token) (l : Level) :
    token.plain.operatorAt? l = token.operatorAt? l := by
  cases token <;> rfl

end Token

/-! ### Relaid trees -/

section

variable {f : Nat → Nat}

theorem withoutSeparators_withoutSeparators (text : String) :
    withoutSeparators (withoutSeparators text) = withoutSeparators text := by
  simp [withoutSeparators]

namespace Tree

variable {r : Rule}

theorem links_relaid (t : Tree r) : (t.relaid f).links = t.links := by
  induction t with
  | link left op binds sign right ih => exact congrArg (· + 1) ih
  | _ => rfl

theorem deepest_relaid (t : Tree r) : (t.relaid f).deepest = t.deepest := by
  induction t with
  | number => rfl
  | group opening inner closing ih => rw [relaid, deepest, deepest, ih, links_relaid]
  | plain operand ih => exact ih
  | negated minus operand ih => exact congrArg (· + 1) ih
  | head operand ih => rw [relaid, deepest, deepest, ih, links_relaid]
  | link left op binds sign right ihl ihr =>
      rw [relaid, deepest, deepest, ihl, ihr, links_relaid]

theorem depth_relaid (t : Tree r) : (t.relaid f).depth = t.depth := by
  rw [depth, depth, deepest_relaid, links_relaid]

end Tree

/-! ### Relaid readings -/

section

variable {goal r : Rule}

theorem Pending.frames_relaid (p : Pending goal r) :
    (p.relaid f).frames = p.frames.map (Frame.relaid f) := by
  induction p with
  | done => rfl
  | first column outer ih => rw [relaid, frames, frames, ih]; rfl
  | right column left op binds sign outer ih => rw [relaid, frames, frames, ih]; rfl
  | plain column outer ih => rw [relaid, frames, frames, ih]; rfl
  | negated minus outer ih => rw [relaid, frames, frames, ih]; rfl
  | group opening outer ih => rw [relaid, frames, frames, ih]; rfl

theorem Pending.descend_relaid (column : Nat) (l : Level) (p : Pending goal (.chain l)) :
    (p.relaid f).descend (columnAt f column) l = (p.descend column l).relaid f := by
  cases l <;> rfl

namespace Reading

theorem operand_relaid {l : Level} (p : Pending goal l.operand) :
    operand l (p.relaid f) = (operand l p).relaid f := by
  cases l <;> rfl

theorem atPrimary_relaid (expected : List String) (p : Pending goal .primary) (x : Lexeme) :
    atPrimary expected (p.relaid f) (x.relaid f) = (atPrimary expected p x).relaid f := by
  obtain ⟨token, span⟩ := x
  have misfit : (Step.fail ⟨.unexpectedToken token.plain.text expected, (span.relaid f).column,
        ⟨Rule.primary.name, (span.relaid f).column⟩ :: (p.relaid f).frames⟩ : Step goal)
      = Step.relaid f (.fail ⟨.unexpectedToken token.text expected, span.column,
          ⟨Rule.primary.name, span.column⟩ :: p.frames⟩) := by
    rw [token.text_plain, p.frames_relaid]
    rfl
  cases token with
  | number text => rfl
  | lparen => rfl
  | _ => exact misfit

theorem atBase_relaid (p : Pending goal .base) (x : Lexeme) :
    atBase (p.relaid f) (x.relaid f) = (atBase p x).relaid f := by
  have primary := atPrimary_relaid (f := f) baseStart (.plain x.column p) x
  obtain ⟨token, span⟩ := x
  cases token with
  | minus => rfl
  | _ => exact primary

theorem behind_relaid (x : Lexeme) (t : Tree r) (p : Pending goal r) :
    behind (x.relaid f) (t.relaid f) (p.relaid f) = (behind x t p).relaid f := by
  induction p with
  | done => rfl
  | first column outer ih =>
      rw [Pending.relaid, behind, behind, Lexeme.relaid, Token.operatorAt?_plain]
      -- an operator goes on with the chain; behind its last operand, the chain is a tree itself
      rcases x.token.operatorAt? _ with - | ⟨op, binds⟩
      · exact ih (.head t)
      · exact congrArg Step.next (operand_relaid (.right column (.head t) op binds x.span outer))
  | right column left op binds sign outer ih =>
      rw [Pending.relaid, behind, behind, Lexeme.relaid, Token.operatorAt?_plain]
      rcases x.token.operatorAt? _ with - | ⟨op', binds'⟩
      · exact ih (.link left op binds sign t)
      · exact congrArg Step.next
          (operand_relaid (.right column (.link left op binds sign t) op' binds' x.span outer))
  | plain column outer ih => exact ih (.plain t)
  | negated minus outer ih => exact ih (.negated minus t)
  | group opening outer ih =>
      obtain ⟨token, span⟩ := x
      have misfit : (Step.fail ⟨.unclosedGroup (some token.plain.text) (opening.relaid f).column,
            (span.relaid f).column,
            (Pending.group (opening.relaid f) (outer.relaid f)).frames⟩ : Step goal)
          = Step.relaid f (.fail ⟨.unclosedGroup (some token.text) opening.column, span.column,
              (Pending.group opening outer).frames⟩) := by
        have frames := (Pending.group opening outer).frames_relaid (f := f)
        rw [Pending.relaid] at frames
        rw [token.text_plain, frames]
        rfl
      cases token with
      | rparen => rfl
      | _ => exact misfit

/-- A step reads a relaid lexeme as it reads the lexeme. -/
theorem step_relaid (s : Reading goal) (x : Lexeme) :
    (s.relaid f).step (x.relaid f) = (s.step x).relaid f := by
  cases s with
  | chain l p =>
      rw [relaid, step, step, ← atBase_relaid, ← Pending.descend_relaid]
      rfl
  | base p => exact atBase_relaid p x
  | primary p => exact atPrimary_relaid primaryStart p x
  | after t p => exact behind_relaid x t p

theorem close_relaid (column : Nat) (t : Tree r) (p : Pending goal r) :
    close (columnAt f column) (t.relaid f) (p.relaid f)
      = ((close column t p).map (Tree.relaid f)).mapError (ParseError.relaid f) := by
  induction p with
  | done => rfl
  | first _ outer ih => exact ih (.head t)
  | right _ left op binds sign outer ih => exact ih (.link left op binds sign t)
  | plain _ outer ih => exact ih (.plain t)
  | negated minus outer ih => exact ih (.negated minus t)
  | group opening outer =>
      have frames := (Pending.group opening outer).frames_relaid (f := f)
      rw [Pending.relaid] at frames ⊢
      rw [close, frames]
      rfl

/-- The end of a line is read behind relaid lexemes as behind the lexemes. -/
theorem finish_relaid (s : Reading goal) (column : Nat) :
    (s.relaid f).finish (columnAt f column)
      = ((s.finish column).map (Tree.relaid f)).mapError (ParseError.relaid f) := by
  have missing_relaid (expected : List String) (p : Pending goal .primary) :
      missing expected (p.relaid f) (columnAt f column)
        = (missing expected p column).relaid f := by
    rw [missing, p.frames_relaid]
    rfl
  cases s with
  | chain l p =>
      rw [relaid, finish, Pending.descend_relaid]
      exact congrArg Except.error (missing_relaid baseStart (.plain column (p.descend column l)))
  | base p => exact congrArg Except.error (missing_relaid baseStart (.plain column p))
  | primary p => exact congrArg Except.error (missing_relaid primaryStart p)
  | after t p => exact close_relaid column t p

/-- **Reading goes the same way.**  Relaid lexemes are read to the relaid tree, or to the fault in
its new place. -/
theorem run_relaid (column : Nat) (s : Reading goal) (xs : List Lexeme) :
    run (columnAt f column) (s.relaid f) (xs.map (Lexeme.relaid f))
      = ((run column s xs).map (Prod.map (Tree.relaid f) (List.map (Lexeme.relaid f)))).mapError
          (ParseError.relaid f) := by
  induction xs generalizing s with
  | nil =>
      rw [List.map_nil, run, run, finish_relaid]
      cases s.finish column <;> rfl
  | cons x xs ih =>
      rw [List.map_cons, run, run, step_relaid]
      cases s.step x with
      | next s' => exact ih s'
      | stop t => rfl
      | fail e => rfl

end Reading

end

/-! ### Relaid lines -/

theorem deepGroup?_relaid (max depth : Nat) (xs : List Lexeme) :
    deepGroup? max depth (xs.map (Lexeme.relaid f))
      = (deepGroup? max depth xs).map (columnAt f) := by
  induction xs generalizing depth with
  | nil => rfl
  | cons x xs ih =>
      obtain ⟨token, span⟩ := x
      cases token with
      | lparen =>
          simp only [List.map_cons, Lexeme.relaid, Token.plain, deepGroup?]
          by_cases deep : max < depth + 1
          · rw [if_pos deep, if_pos deep]
            rfl
          · rw [if_neg deep, if_neg deep, ih]
      | rparen => exact ih (depth - 1)
      | _ => exact ih depth

variable (mono : Monotone f)
include mono

theorem Span.cover_relaid (a b : Span) :
    (a.relaid f).cover (b.relaid f) = (a.cover b).relaid f := by
  simp only [Span.cover, Span.relaid, mono.map_min, mono.map_max]

namespace Tree

variable {r : Rule}

theorem spans_relaid (t : Tree r) :
    (t.relaid f).spans = t.spans.map (Span.relaid f) (Span.relaid f) := by
  induction t with
  | number text span => rfl
  | group opening inner closing =>
      rw [relaid, spans, Span.cover_relaid mono]
      rfl
  | plain operand ih => exact ih
  | negated minus operand ih =>
      rw [relaid, spans, ih, Prod.map_snd, Span.cover_relaid mono]
      rfl
  | head operand ih =>
      rw [relaid, spans, ih]
      rfl
  | link left op binds sign right ihl ihr =>
      rw [relaid, spans, ihl, ihr, Prod.map_fst, Prod.map_snd, Span.cover_relaid mono]
      rfl

theorem span_relaid (t : Tree r) : (t.relaid f).span = t.span.relaid f :=
  congrArg Prod.snd (t.spans_relaid mono)

/-- The expression of a relaid tree is the expression of the tree, relaid. -/
theorem toExpr_relaid (t : Tree r) : (t.relaid f).toExpr = t.toExpr.relaid f := by
  induction t with
  | number text span =>
      rw [relaid, toExpr, withoutSeparators_withoutSeparators]
      rfl
  | group opening inner closing ih => exact ih
  | plain operand ih => exact ih
  | negated minus operand ih =>
      rw [relaid, toExpr, ih, operand.span_relaid mono, Span.cover_relaid mono]
      rfl
  | head operand ih => exact ih
  | link left op binds sign right ihl ihr =>
      rw [relaid, toExpr, ihl, ihr, Expr.span_relaid, Expr.span_relaid, Span.cover_relaid mono]
      rfl

end Tree

theorem parseLexemes_relaid (xs : List Lexeme) (length : Nat) :
    parseLexemes (xs.map (Lexeme.relaid f)) (f length)
      = ((parseLexemes xs length).map (Tree.relaid f)).mapError (ParseError.relaid f) := by
  rw [parseLexemes, parseLexemes, List.isEmpty_map, deepGroup?_relaid]
  by_cases empty : xs.isEmpty
  · rw [if_pos empty, if_pos empty]
    rfl
  · rw [if_neg empty, if_neg empty]
    cases deepGroup? maxDepth 0 xs with
    | some column => rfl
    | none =>
        -- the end of the line is relaid with the lexemes, since faults are placed there
        have chain : parseChain (f length + 1) .expr (xs.map (Lexeme.relaid f))
            = ((parseChain (length + 1) .expr xs).map
                (Prod.map (Tree.relaid f) (List.map (Lexeme.relaid f)))).mapError
                  (ParseError.relaid f) :=
          Reading.run_relaid (length + 1) (.chain .expr .done) xs
        simp only [Option.map_none, chain]
        rcases parseChain (length + 1) .expr xs with e | ⟨t, - | ⟨x, rest⟩⟩
        · rfl
        · simp only [Except.map, Except.mapError, Prod.map, List.map_nil, t.depth_relaid,
            t.span_relaid mono]
          by_cases deep : maxDepth < t.depth
          · rw [if_pos deep, if_pos deep]
            rfl
          · rw [if_neg deep, if_neg deep]
        · simp only [Except.map, Except.mapError, Prod.map, List.map_cons, Lexeme.relaid,
            x.token.text_plain]
          rfl

/-- **What relaid lexemes lead to** is the same value, or the same fault in its new place. -/
theorem evaluateLexemes_relaid (limits : Limits) (xs : List Lexeme) (length : Nat) :
    evaluateLexemes limits (xs.map (Lexeme.relaid f)) (f length)
      = (evaluateLexemes limits xs length).mapError (Failure.relaid f) := by
  rw [evaluateLexemes, evaluateLexemes, parseLexemes_relaid mono]
  cases parseLexemes xs length with
  | error e => rfl
  | ok t =>
      simp only [Except.map, Except.mapError, t.toExpr_relaid mono, Expr.evaluate_relaid]
      cases t.toExpr.evaluate limits <;> rfl

end

end Calculator
