import Calculator.ParseError
import Calculator.Tree.Pending

/-!
# Trees — reading lexemes

Lexemes are read from left to right, one step each, into a pending tree.  Where an operand may
start, the rules down to its primary are opened; behind a primary, the next lexeme closes every
rule that it cannot continue.

* `Reading.lexemes_step`, `Reading.lexemes_stop`: a step reads its lexeme, and a tree is complete
  only if it derives all that was read.
* `Reading.lexemes_finish`: so it is at the end of a line.
* `Reading.lexemes_run`: **no lexeme is dropped or moved.**  A tree that was read and the lexemes
  left over are the lexemes that were given, in their order.
-/

namespace Calculator

/-- What a primary starts with. -/
def primaryStart : List String := ["a number", "'('"]

/-- What a base starts with. -/
def baseStart : List String := ["a number", "'('", "'-'"]

/-- The operator of level `l` that a token stands for. -/
def Token.operatorAt? (token : Token) (l : Level) : Option { op : Operator // op.level = l } :=
  match token.operator? with
  | none => none
  | some op => if h : op.level = l then some ⟨op, h⟩ else none

/-- Where reading stands in a derivation of `goal`. -/
inductive Reading (goal : Rule) where
  /-- In front of a chain of level `l`. -/
  | chain (l : Level) (pending : Pending goal (.chain l))
  /-- In front of a base. -/
  | base (pending : Pending goal .base)
  /-- Behind a minus sign, in front of its operand. -/
  | primary (pending : Pending goal .primary)
  /-- Behind a primary. -/
  | after (tree : Tree .primary) (pending : Pending goal .primary)

/-- What one lexeme leads to. -/
inductive Step (goal : Rule) where
  /-- The lexeme is read. -/
  | next (reading : Reading goal)
  /-- The tree is complete and the lexeme does not continue it. -/
  | stop (tree : Tree goal)
  /-- The lexeme fits nowhere. -/
  | fail (error : ParseError)

namespace Reading

variable {goal : Rule}

/-- In front of an operand of a chain of level `l`. -/
def operand : (l : Level) → Pending goal l.operand → Reading goal
  | .expr, p => .chain .term p
  | .term, p => .chain .factor p
  | .factor, p => .base p

/-- Reads the first lexeme of a primary. -/
def atPrimary (expected : List String) (p : Pending goal .primary) (x : Lexeme) : Step goal :=
  match x.token with
  | .number text => .next (.after (.number text x.span) p)
  | .lparen => .next (.chain .expr (.group x.span p))
  | token =>
    .fail ⟨.unexpectedToken token.text expected, x.column,
      ⟨Rule.primary.name, x.column⟩ :: p.frames⟩

/-- Reads the first lexeme of a base. -/
def atBase (p : Pending goal .base) (x : Lexeme) : Step goal :=
  match x.token with
  | .minus => .next (.primary (.negated x.span p))
  | _ => atPrimary baseStart (.plain x.column p) x

/-- Reads the lexeme behind a tree: it joins another operand to the innermost open chain of its
level, or closes the innermost group; the rules that it cannot continue are complete. -/
def behind (x : Lexeme) {r : Rule} (t : Tree r) : Pending goal r → Step goal
  | .done => .stop t
  | .first (l := l) column outer =>
    match x.token.operatorAt? l with
    | some ⟨op, binds⟩ => .next (operand l (.right column (.head t) op binds x.span outer))
    | none => behind x (.head t) outer
  | .right (l := l) column left op binds sign outer =>
    match x.token.operatorAt? l with
    | some ⟨op', binds'⟩ =>
      .next (operand l (.right column (.link left op binds sign t) op' binds' x.span outer))
    | none => behind x (.link left op binds sign t) outer
  | .plain _ outer => behind x (.plain t) outer
  | .negated minus outer => behind x (.negated minus t) outer
  | .group opening outer =>
    match x.token with
    | .rparen => .next (.after (.group opening t x.span) outer)
    | token =>
      .fail ⟨.unclosedGroup (some token.text) opening.column, x.column,
        (Pending.group opening outer).frames⟩

/-- Reads one lexeme. -/
def step : Reading goal → Lexeme → Step goal
  | .chain l p, x => atBase (p.descend x.column l) x
  | .base p, x => atBase p x
  | .primary p, x => atPrimary primaryStart p x
  | .after t p, x => behind x t p

/-- The fault of a line that ends, before `column`, in front of a primary. -/
def missing (expected : List String) (p : Pending goal .primary) (column : Nat) : ParseError :=
  ⟨.unexpectedEnd expected, column, ⟨Rule.primary.name, column⟩ :: p.frames⟩

/-- Completes all open rules behind a tree at the end of a line, before `column`. -/
def close (column : Nat) {r : Rule} (t : Tree r) : Pending goal r → Except ParseError (Tree goal)
  | .done => .ok t
  | .first _ outer => close column (.head t) outer
  | .right _ left op binds sign outer => close column (.link left op binds sign t) outer
  | .plain _ outer => close column (.plain t) outer
  | .negated minus outer => close column (.negated minus t) outer
  | .group opening outer =>
    .error ⟨.unclosedGroup none opening.column, column, (Pending.group opening outer).frames⟩

/-- Reads the end of a line, before `column`. -/
def finish (column : Nat) : Reading goal → Except ParseError (Tree goal)
  | .chain l p => .error (missing baseStart (.plain column (p.descend column l)) column)
  | .base p => .error (missing baseStart (.plain column p) column)
  | .primary p => .error (missing primaryStart p column)
  | .after t p => close column t p

/-- Reads lexemes up to the first that does not continue the derivation, or to the end of the
line, before `column`; returns what is left over. -/
def run (column : Nat) : Reading goal → List Lexeme → Except ParseError (Tree goal × List Lexeme)
  | reading, [] => (finish column reading).map (·, [])
  | reading, x :: rest =>
    match step reading x with
    | .next reading' => run column reading' rest
    | .stop t => .ok (t, x :: rest)
    | .fail e => .error e

end Reading

/-! ### What was read -/

namespace Reading

variable {goal : Rule}

/-- The lexemes read so far. -/
def lexemes : Reading goal → List Lexeme
  | .chain _ p => p.lexemes
  | .base p => p.lexemes
  | .primary p => p.lexemes
  | .after t p => p.lexemes ++ t.lexemes

theorem lexemes_operand (l : Level) (p : Pending goal l.operand) :
    (operand l p).lexemes = p.lexemes := by
  cases l <;> rfl

theorem eq_of_operatorAt? {token : Token} {l : Level} {op : Operator} {binds : op.level = l}
    (h : token.operatorAt? l = some ⟨op, binds⟩) : token = op.token := by
  unfold Token.operatorAt? at h
  split at h
  · cases h
  · rename_i op' hop
    split at h
    · cases h
      exact Token.operator?_eq_some_iff.1 hop
    · cases h

theorem lexemes_atPrimary {expected : List String} {p : Pending goal .primary} {x : Lexeme}
    {s : Reading goal} (h : atPrimary expected p x = .next s) : s.lexemes = p.lexemes ++ [x] := by
  obtain ⟨token, span⟩ := x
  cases token <;> cases h <;> rfl

theorem lexemes_atBase {p : Pending goal .base} {x : Lexeme} {s : Reading goal}
    (h : atBase p x = .next s) : s.lexemes = p.lexemes ++ [x] := by
  obtain ⟨token, span⟩ := x
  cases token <;> cases h <;> rfl

/-- Behind a tree, a lexeme that is read is put after what the tree and its surroundings derive. -/
theorem lexemes_behind {x : Lexeme} {r : Rule} {t : Tree r} {p : Pending goal r} {s : Reading goal}
    (h : behind x t p = .next s) : s.lexemes = p.lexemes ++ t.lexemes ++ [x] := by
  induction p with
  | done => cases h
  | @first l column outer ih =>
      simp only [behind] at h
      split at h
      · rename_i op binds hop
        cases h
        simp [lexemes_operand, Pending.lexemes, Tree.lexemes, ← eq_of_operatorAt? hop]
      · simpa [Pending.lexemes, Tree.lexemes] using ih h
  | @right l column left op binds sign outer ih =>
      simp only [behind] at h
      split at h
      · rename_i op' binds' hop
        cases h
        simp [lexemes_operand, Pending.lexemes, Tree.lexemes, ← eq_of_operatorAt? hop]
      · simpa [Pending.lexemes, Tree.lexemes] using ih h
  | plain column outer ih => simpa [Pending.lexemes, Tree.lexemes] using ih h
  | negated minus outer ih => simpa [Pending.lexemes, Tree.lexemes] using ih h
  | group opening outer ih =>
      obtain ⟨token, span⟩ := x
      cases token <;> cases h
      simp [lexemes, Pending.lexemes, Tree.lexemes]

/-- A tree that is complete behind another derives it and its surroundings. -/
theorem lexemes_behind_stop {x : Lexeme} {r : Rule} {t : Tree r} {p : Pending goal r}
    {t' : Tree goal} (h : behind x t p = .stop t') : t'.lexemes = p.lexemes ++ t.lexemes := by
  induction p with
  | done => cases h; rfl
  | @first l column outer ih =>
      simp only [behind] at h
      split at h
      · cases h
      · simpa [Pending.lexemes, Tree.lexemes] using ih h
  | @right l column left op binds sign outer ih =>
      simp only [behind] at h
      split at h
      · cases h
      · simpa [Pending.lexemes, Tree.lexemes] using ih h
  | plain column outer ih => simpa [Pending.lexemes, Tree.lexemes] using ih h
  | negated minus outer ih => simpa [Pending.lexemes, Tree.lexemes] using ih h
  | group opening outer ih =>
      obtain ⟨token, span⟩ := x
      cases token <;> cases h

theorem lexemes_close {column : Nat} {r : Rule} {t : Tree r} {p : Pending goal r}
    {t' : Tree goal} (h : close column t p = .ok t') : t'.lexemes = p.lexemes ++ t.lexemes := by
  induction p with
  | done => cases h; rfl
  | first column outer ih => simpa [Pending.lexemes, Tree.lexemes] using ih h
  | right column left op binds sign outer ih =>
      simpa [Pending.lexemes, Tree.lexemes] using ih h
  | plain column outer ih => simpa [Pending.lexemes, Tree.lexemes] using ih h
  | negated minus outer ih => simpa [Pending.lexemes, Tree.lexemes] using ih h
  | group opening outer ih => cases h

/-- A step reads its lexeme. -/
theorem lexemes_step {s s' : Reading goal} {x : Lexeme} (h : s.step x = .next s') :
    s'.lexemes = s.lexemes ++ [x] := by
  cases s with
  | chain l p => cases l <;> exact lexemes_atBase h
  | base p => exact lexemes_atBase h
  | primary p => exact lexemes_atPrimary h
  | after t p => exact lexemes_behind h

/-- A tree is complete in front of a lexeme only if it derives all that was read. -/
theorem lexemes_stop {s : Reading goal} {x : Lexeme} {t : Tree goal} (h : s.step x = .stop t) :
    t.lexemes = s.lexemes := by
  obtain ⟨token, span⟩ := x
  cases s with
  | chain l p => cases token <;> cases h
  | base p => cases token <;> cases h
  | primary p => cases token <;> cases h
  | after t p => exact lexemes_behind_stop h

/-- A tree is complete at the end of a line only if it derives all that was read. -/
theorem lexemes_finish {s : Reading goal} {column : Nat} {t : Tree goal}
    (h : s.finish column = .ok t) : t.lexemes = s.lexemes := by
  cases s with
  | chain l p => cases h
  | base p => cases h
  | primary p => cases h
  | after t p => exact lexemes_close h

/-- A tree that was read and the lexemes left over are the lexemes that were given. -/
theorem lexemes_run {column : Nat} {s : Reading goal} {xs rest : List Lexeme} {t : Tree goal}
    (h : s.run column xs = .ok (t, rest)) : t.lexemes ++ rest = s.lexemes ++ xs := by
  induction xs generalizing s with
  | nil =>
      simp only [run] at h
      cases hf : s.finish column with
      | error e => rw [hf] at h; cases h
      | ok t' =>
          rw [hf] at h
          cases h
          rw [lexemes_finish hf]
  | cons x xs ih =>
      simp only [run] at h
      split at h
      · rename_i s' hs
        rw [ih h, lexemes_step hs, List.append_assoc, List.singleton_append]
      · rename_i t' ht
        cases h
        rw [lexemes_stop ht]
      · cases h

end Reading
end Calculator
