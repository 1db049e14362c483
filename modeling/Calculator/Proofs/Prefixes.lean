import Mathlib.Data.List.Induction
import Calculator.Proofs.Grammar

/-!
# Trees — what an expression may start with

Lexemes are viable if a derivation starts with them.  They are read, one step each, exactly as long
as they are viable, so that a fault lies at the first lexeme with which no expression goes on.

* `Reading.Reads`: reading lexemes, one step each; `Reading.exists_reads`: all are read, or there is
  a first that is not.
* `viable_iff`: **lexemes are read if and only if a derivation starts with them.**
* `viable_concat_iff`, `derivable_iff`: so it is for one lexeme more, and for the end of the line.
* `parseLexemes_error`: **faults lie at the earliest lexeme**, and the alternatives they name are
  the kinds of tokens that may come there.
-/

namespace Calculator

/-! ### Runs -/

namespace Reading

variable {goal : Rule}

/-- Reading the lexemes, one step each, leads from the first reading to the second. -/
inductive Reads (s : Reading goal) : List Lexeme → Reading goal → Prop
  | nil : Reads s [] s
  | snoc {xs : List Lexeme} {x : Lexeme} {s₁ s' : Reading goal} (h : Reads s xs s₁)
      (step : s₁.step x = .next s') : Reads s (xs ++ [x]) s'

variable {s s' s₁ : Reading goal} {xs ys : List Lexeme} {x : Lexeme} {column : Nat}

theorem Reads.lexemes_eq (h : s.Reads xs s') : s'.lexemes = s.lexemes ++ xs := by
  induction h with
  | nil => exact (List.append_nil _).symm
  | snoc _ step ih => rw [lexemes_step step, ih, List.append_assoc]

theorem Reads.run_append (h : s.Reads xs s') (column : Nat) (ys : List Lexeme) :
    run column s (xs ++ ys) = run column s' ys := by
  induction h generalizing ys with
  | nil => rfl
  | snoc _ step ih => rw [List.append_assoc, List.singleton_append, ih, run, step]

theorem reads_concat_iff :
    s.Reads (xs ++ [x]) s' ↔ ∃ s₁, s.Reads xs s₁ ∧ s₁.step x = .next s' := by
  refine ⟨fun h => ?_, fun ⟨s₁, h, step⟩ => .snoc h step⟩
  generalize e : xs ++ [x] = zs at h
  cases h with
  | nil => exact absurd e (by simp)
  | snoc h step =>
      obtain ⟨rfl, last⟩ := List.append_inj' e rfl
      obtain rfl := List.singleton_inj.mp last
      exact ⟨_, h, step⟩

/-- Reading is deterministic. -/
theorem Reads.unique (h : s.Reads xs s₁) (h' : s.Reads xs s') : s₁ = s' := by
  induction h generalizing s' with
  | nil =>
      generalize e : [] = zs at h'
      cases h' with
      | nil => rfl
      | snoc => exact absurd e (by simp)
  | snoc _ step ih =>
      obtain ⟨s₂, h₂, step'⟩ := reads_concat_iff.mp h'
      cases ih h₂
      exact Step.next.inj (step.symm.trans step')

/-- The first lexeme of a line that is read to its end leads on. -/
theorem exists_step {T : Tree goal} (h : run column s (x :: xs) = .ok (T, [])) :
    ∃ s', s.step x = .next s' ∧ run column s' xs = .ok (T, []) := by
  rw [run] at h
  split at h
  · rename_i s' hs
    exact ⟨s', hs, h⟩
  · cases h
  · cases h

/-- A line that is read to its end can be cut anywhere. -/
theorem exists_reads_of_run {T : Tree goal} (h : run column s (xs ++ ys) = .ok (T, [])) :
    ∃ s', s.Reads xs s' := by
  induction xs using List.reverseRecOn generalizing ys with
  | nil => exact ⟨s, .nil⟩
  | append_singleton xs x ih =>
      rw [List.append_assoc] at h
      obtain ⟨s₁, reads⟩ := ih h
      rw [reads.run_append] at h
      obtain ⟨s', step, -⟩ := exists_step h
      exact ⟨s', .snoc reads step⟩

/-- All lexemes are read, or there is a first that is not. -/
theorem exists_reads (s : Reading goal) (xs : List Lexeme) : (∃ s', s.Reads xs s') ∨
    ∃ before x after s', xs = before ++ x :: after ∧ s.Reads before s' ∧
      ∀ s₁, s'.step x ≠ .next s₁ := by
  induction xs using List.reverseRecOn with
  | nil => exact .inl ⟨s, .nil⟩
  | append_singleton xs x ih =>
      rcases ih with ⟨s', reads⟩ | ⟨before, y, after, s', rfl, reads, stuck⟩
      · by_cases next : ∃ s₁, s'.step x = .next s₁
        · obtain ⟨s₁, step⟩ := next
          exact .inl ⟨s₁, .snoc reads step⟩
        · exact .inr ⟨xs, x, [], s', rfl, reads, not_exists.mp next⟩
      · exact .inr ⟨before, y, after ++ [x], s', List.append_assoc _ _ _, reads, stuck⟩

/-! ### Steps -/

/-- What leads on behind a tree: an operator, which asks for an operand, or a parenthesis, which
closes a group.  No rule is opened that was not open before. -/
def Continued {r : Rule} (p : Pending goal r) (token : Token) (s : Reading goal) : Prop :=
  (∃ (l : Level) (q : Pending goal l.operand),
    q.frames <:+ p.frames ∧ token.operator? ≠ none ∧ s = operand l q) ∨
  ∃ (t : Tree .primary) (q : Pending goal .primary),
    q.frames <:+ p.frames ∧ token = .rparen ∧ s = .after t q

theorem Continued.mono {r r' : Rule} {p : Pending goal r} {q : Pending goal r'} {token : Token}
    (h : Continued p token s) (suffix : p.frames <:+ q.frames) : Continued q token s := by
  rcases h with ⟨l, q', inner, operates, e⟩ | ⟨t, q', inner, close, e⟩
  · exact .inl ⟨l, q', inner.trans suffix, operates, e⟩
  · exact .inr ⟨t, q', inner.trans suffix, close, e⟩

/-- Behind a tree, only an operator and a closing parenthesis lead on. -/
theorem behind_eq_next {r : Rule} {t : Tree r} {p : Pending goal r}
    (h : behind x t p = .next s) : Continued p x.token s := by
  have operates {l : Level} {op : Operator} {binds : op.level = l}
      (hop : x.token.operatorAt? l = some ⟨op, binds⟩) : x.token.operator? ≠ none := by
    rw [eq_of_operatorAt? hop, Operator.operator?_token]
    exact nofun
  induction p with
  | done => cases h
  | first column outer ih =>
      rw [behind] at h
      split at h
      · rename_i hop
        cases h
        refine .inl ⟨_, _, ?_, operates hop, rfl⟩
        exact List.suffix_refl _
      · exact (ih h).mono (List.suffix_cons _ _)
  | right column left op binds sign outer ih =>
      rw [behind] at h
      split at h
      · rename_i hop
        cases h
        refine .inl ⟨_, _, ?_, operates hop, rfl⟩
        exact List.suffix_refl _
      · exact (ih h).mono (List.suffix_cons _ _)
  | plain column outer ih => exact (ih h).mono (List.suffix_cons _ _)
  | negated minus outer ih => exact (ih h).mono (List.suffix_cons _ _)
  | group opening outer ih =>
      rw [behind] at h
      split at h
      · rename_i close
        cases h
        exact .inr ⟨_, _, List.suffix_cons _ _, close, rfl⟩
      · cases h

/-- The fault at a column is that of the innermost group that is open, and its trace that of the
group. -/
def Unclosed {r : Rule} (p : Pending goal r) (found : Option String) (column : Nat)
    (e : ParseError) : Prop :=
  ∃ (opening : Span) (outer : Pending goal .primary),
    (Pending.group opening outer).frames <:+ p.frames ∧
      (Pending.group opening outer).groups = p.groups ∧
      e = ⟨.unclosedGroup found opening.column, column, (Pending.group opening outer).frames⟩

theorem Unclosed.mono {r r' : Rule} {p : Pending goal r} {q : Pending goal r'}
    {found : Option String} {e : ParseError} (h : Unclosed p found column e)
    (suffix : p.frames <:+ q.frames) (groups : p.groups = q.groups) :
    Unclosed q found column e := by
  obtain ⟨opening, outer, inner, innermost, fault⟩ := h
  exact ⟨opening, outer, inner.trans suffix, innermost.trans groups, fault⟩

/-- Behind a tree, what fits nowhere stands in a group. -/
theorem behind_eq_fail {r : Rule} {t : Tree r} {p : Pending goal r} {e : ParseError}
    (h : behind x t p = .fail e) : Unclosed p (some x.token.text) x.column e := by
  induction p with
  | done => cases h
  | first column outer ih =>
      rw [behind] at h
      split at h
      · cases h
      · exact (ih h).mono (List.suffix_cons _ _) rfl
  | right column left op binds sign outer ih =>
      rw [behind] at h
      split at h
      · cases h
      · exact (ih h).mono (List.suffix_cons _ _) rfl
  | plain column outer ih => exact (ih h).mono (List.suffix_cons _ _) rfl
  | negated minus outer ih => exact (ih h).mono (List.suffix_cons _ _) rfl
  | group opening outer ih =>
      rw [behind] at h
      split at h
      · cases h
      · cases h
        exact ⟨opening, outer, List.suffix_refl _, rfl, rfl⟩

/-- Behind a tree, a line ends too early in a group only. -/
theorem close_eq_error {r : Rule} {t : Tree r} {p : Pending goal r} {e : ParseError}
    (h : close column t p = .error e) : Unclosed p none column e := by
  induction p with
  | done => cases h
  | first _ _ ih => exact (ih h).mono (List.suffix_cons _ _) rfl
  | right _ _ _ _ _ _ ih => exact (ih h).mono (List.suffix_cons _ _) rfl
  | plain _ _ ih => exact (ih h).mono (List.suffix_cons _ _) rfl
  | negated _ _ ih => exact (ih h).mono (List.suffix_cons _ _) rfl
  | group opening outer =>
      cases h
      exact ⟨opening, outer, List.suffix_refl _, rfl, rfl⟩

end Reading

/-- The name of the token's kind in the alternatives of a fault, if an operand may start with it. -/
def Token.kind? : Token → Option String
  | .number _ => some "a number"
  | .lparen => some "'('"
  | .minus => some "'-'"
  | _ => none

namespace Reading

variable {goal : Rule} {s : Reading goal} {x : Lexeme} {expected : List String}

/-- What may come where an operand has to start. -/
def expected? : Reading goal → Option (List String)
  | .chain _ _ => some baseStart
  | .base _ => some baseStart
  | .primary _ => some primaryStart
  | .after _ _ => none

/-- Where an operand has to start, the tokens of the expected kinds lead on, and no others. -/
theorem step_eq_next_iff (h : s.expected? = some expected) :
    (∃ s', s.step x = .next s') ↔ ∃ name ∈ expected, x.token.kind? = some name := by
  obtain ⟨token, span⟩ := x
  cases s with
  | after => cases h
  | _ =>
      cases h
      cases token <;>
        simp [step, atBase, atPrimary, Token.kind?, baseStart, primaryStart]

/-- Only a minus sign in front of an operand asks for a primary. -/
theorem step_eq_primary {p : Pending goal .primary} (h : s.step x = .next (.primary p)) :
    x.token = .minus ∧ s.expected? = some baseStart := by
  obtain ⟨token, span⟩ := x
  cases s with
  | chain l q =>
      cases token <;> cases h
      exact ⟨rfl, rfl⟩
  | base q =>
      cases token <;> cases h
      exact ⟨rfl, rfl⟩
  | primary q => cases token <;> cases h
  | after t q =>
      rcases behind_eq_next h with ⟨l, q, -, -, e⟩ | ⟨t, q, -, -, e⟩
      · cases l <;> cases e
      · cases e

/-- A minus sign where a number may stand, too, asks for a primary. -/
theorem exists_primary {s₁ s₂ : Reading goal} {minus span : Span} {text : String}
    (h : s.step ⟨.minus, minus⟩ = .next s₁) (h' : s.step ⟨.number text, span⟩ = .next s₂) :
    ∃ p, s₁ = .primary p := by
  cases s with
  | chain l q =>
      cases h
      exact ⟨_, rfl⟩
  | base q =>
      cases h
      exact ⟨_, rfl⟩
  | primary q => cases h
  | after t q =>
      rcases behind_eq_next h' with ⟨l, q, -, operates, -⟩ | ⟨t, q, -, close, -⟩
      · exact absurd rfl operates
      · cases close

theorem step_eq_fail {e : ParseError} (h : s.step x = .fail e) : e.column = x.column ∧
    ((∃ expected, s.expected? = some expected ∧
        e.cause = .unexpectedToken x.token.text expected) ∨
      ∃ opened, e.cause = .unclosedGroup (some x.token.text) opened) := by
  obtain ⟨token, span⟩ := x
  cases s with
  | after t p =>
      obtain ⟨opening, outer, -, -, rfl⟩ := behind_eq_fail h
      exact ⟨rfl, .inr ⟨_, rfl⟩⟩
  | _ => cases token <;> cases h <;> exact ⟨rfl, .inl ⟨_, rfl, rfl⟩⟩

theorem finish_eq_error {column : Nat} {e : ParseError} (h : s.finish column = .error e) :
    (∃ expected, s.expected? = some expected ∧ e.cause = .unexpectedEnd expected) ∨
      ∃ opened, e.cause = .unclosedGroup none opened := by
  cases s with
  | after t p =>
      obtain ⟨opening, outer, -, -, rfl⟩ := close_eq_error h
      exact .inr ⟨_, rfl⟩
  | _ =>
      cases h
      exact .inl ⟨_, rfl, rfl⟩

end Reading

/-! ### Viable lexemes -/

/-- Lexemes that a chain of the level derives. -/
def Derivable (l : Level) (xs : List Lexeme) : Prop := ∃ t : Tree (.chain l), Derives xs t

/-- Lexemes that derivable ones start with. -/
def Viable (l : Level) (xs : List Lexeme) : Prop := ∃ ys, Derivable l (xs ++ ys)

/-- Every rule derives something. -/
theorem Tree.nonempty : (r : Rule) → Nonempty (Tree r)
  | .primary => ⟨.number "0" default⟩
  | .base => ⟨.plain (.number "0" default)⟩
  | .chain .factor => ⟨.head (l := .factor) (.plain (.number "0" default))⟩
  | .chain .term => ⟨.head (l := .term) (.head (l := .factor) (.plain (.number "0" default)))⟩
  | .chain .expr => ⟨.head (l := .expr) (.head (l := .term) (.head (l := .factor)
      (.plain (.number "0" default))))⟩

/-- With a tree in the missing place and its groups closed, a pending tree is complete. -/
theorem Pending.exists_complete {goal r : Rule} (t : Tree r) (p : Pending goal r) :
    ∃ (T : Tree goal) (ys : List Lexeme), T.lexemes = p.lexemes ++ t.lexemes ++ ys := by
  induction p with
  | done => exact ⟨t, [], (List.append_nil _).symm⟩
  | first column outer ih => exact ih (.head t)
  | right column left op binds sign outer ih =>
      obtain ⟨T, ys, e⟩ := ih (.link left op binds sign t)
      exact ⟨T, ys, by simp [e, lexemes, Tree.lexemes]⟩
  | plain column outer ih => exact ih (.plain t)
  | negated minus outer ih =>
      obtain ⟨T, ys, e⟩ := ih (.negated minus t)
      exact ⟨T, ys, by simp [e, lexemes, Tree.lexemes]⟩
  | group opening outer ih =>
      obtain ⟨T, ys, e⟩ := ih (.group opening t default)
      exact ⟨T, ⟨.rparen, default⟩ :: ys, by simp [e, lexemes, Tree.lexemes]⟩

/-- What was read can be completed. -/
theorem Reading.exists_complete {goal : Rule} (s : Reading goal) :
    ∃ (T : Tree goal) (ys : List Lexeme), T.lexemes = s.lexemes ++ ys := by
  have missing {r : Rule} (p : Pending goal r) :
      ∃ (T : Tree goal) (ys : List Lexeme), T.lexemes = p.lexemes ++ ys := by
    obtain ⟨t⟩ := Tree.nonempty r
    obtain ⟨T, ys, e⟩ := p.exists_complete t
    exact ⟨T, t.lexemes ++ ys, by rw [e, List.append_assoc]⟩
  cases s with
  | chain l p => exact missing p
  | base p => exact missing p
  | primary p => exact missing p
  | after t p => exact p.exists_complete t

section

variable {l : Level} {xs : List Lexeme} {x : Lexeme} {s : Reading (.chain l)}

theorem Derivable.run_eq (h : Derivable l xs) (column : Nat) :
    ∃ t, Reading.run column (.chain l .done) xs = .ok (t, []) := by
  obtain ⟨t, derives⟩ := h
  have read := parseChain_of_lexemes t column [] (by simp)
  rw [List.append_nil, derives.lexemes_eq] at read
  exact ⟨t, read⟩

/-- **Lexemes are read if and only if a derivation starts with them.** -/
theorem viable_iff : Viable l xs ↔ ∃ s, (Reading.chain l .done).Reads xs s := by
  constructor
  · rintro ⟨ys, derivable⟩
    obtain ⟨t, read⟩ := derivable.run_eq 0
    exact Reading.exists_reads_of_run read
  · rintro ⟨s, reads⟩
    obtain ⟨t, ys, e⟩ := s.exists_complete
    refine ⟨ys, t, derives_iff.mpr ?_⟩
    rw [e, reads.lexemes_eq]
    rfl

variable (h : (Reading.chain l .done).Reads xs s)
include h

/-- Behind what was read, a lexeme is viable if and only if it is read. -/
theorem viable_concat_iff : Viable l (xs ++ [x]) ↔ ∃ s', s.step x = .next s' := by
  rw [viable_iff]
  constructor
  · rintro ⟨s', reads⟩
    obtain ⟨s₁, reads, step⟩ := Reading.reads_concat_iff.mp reads
    cases h.unique reads
    exact ⟨s', step⟩
  · rintro ⟨s', step⟩
    exact ⟨s', .snoc h step⟩

/-- What was read is derivable if and only if the line may end there. -/
theorem derivable_iff (column : Nat) : Derivable l xs ↔ ∃ t, s.finish column = .ok t := by
  constructor
  · intro derivable
    obtain ⟨t, read⟩ := derivable.run_eq column
    have last := h.run_append column []
    rw [List.append_nil, read, Reading.run] at last
    cases finished : s.finish column with
    | error e =>
        rw [finished] at last
        cases last
    | ok t' => exact ⟨t', rfl⟩
  · rintro ⟨t, finished⟩
    refine ⟨t, derives_iff.mpr ?_⟩
    rw [Reading.lexemes_finish finished, h.lexemes_eq]
    rfl

/-- What was read is derivable where a lexeme is left over. -/
theorem derivable_of_stop {t : Tree (.chain l)} (stop : s.step x = .stop t) : Derivable l xs := by
  refine ⟨t, derives_iff.mpr ?_⟩
  rw [Reading.lexemes_stop stop, h.lexemes_eq]
  rfl

end

/-! ### Alternatives -/

/-- The lexemes end in a minus sign that is not an operator: a number might stand in its place. -/
def EndsInSign (xs : List Lexeme) : Prop := ∃ before minus text span,
  xs = before ++ [⟨.minus, minus⟩] ∧ Viable .expr (before ++ [⟨.number text, span⟩])

/-- The alternatives name the kinds of tokens that may come behind the lexemes: a number, a group
or, unless the lexemes end in a sign, a minus sign. -/
structure Alternatives (xs : List Lexeme) (expected : List String) : Prop where
  viable_iff : ∀ x : Lexeme,
    Viable .expr (xs ++ [x]) ↔ ∃ name ∈ expected, x.token.kind? = some name
  sign : EndsInSign xs → expected = ["a number", "'('"]
  no_sign : ¬ EndsInSign xs → expected = ["a number", "'('", "'-'"]

section

variable {xs : List Lexeme} {s : Reading (.chain .expr)}

/-- Behind a sign, and nowhere else, a primary has to follow. -/
theorem endsInSign_iff (h : (Reading.chain .expr .done).Reads xs s) :
    EndsInSign xs ↔ ∃ p, s = .primary p := by
  constructor
  · rintro ⟨before, minus, text, span, rfl, viable⟩
    obtain ⟨s₁, reads, step⟩ := Reading.reads_concat_iff.mp h
    obtain ⟨s₂, step'⟩ := (viable_concat_iff reads).mp viable
    exact Reading.exists_primary step step'
  · rintro ⟨p, rfl⟩
    cases h with
    | @snoc before x s₁ _ reads step =>
        obtain ⟨token, minus⟩ := x
        obtain ⟨rfl, operand⟩ := Reading.step_eq_primary step
        refine ⟨before, minus, "0", default, rfl, (viable_concat_iff reads).mpr ?_⟩
        exact (Reading.step_eq_next_iff operand).mpr ⟨_, .head _, rfl⟩

theorem alternatives_of_reads (h : (Reading.chain .expr .done).Reads xs s) {expected : List String}
    (hs : s.expected? = some expected) : Alternatives xs expected where
  viable_iff _ := (viable_concat_iff h).trans (Reading.step_eq_next_iff hs)
  sign ends := by
    obtain ⟨p, rfl⟩ := (endsInSign_iff h).mp ends
    cases hs
    rfl
  no_sign no := by
    cases s with
    | primary p => exact absurd ((endsInSign_iff h).mpr ⟨p, rfl⟩) no
    | after => cases hs
    | _ =>
        cases hs
        rfl

end

/-! ### Faults -/

/-- The fault is at the lexeme `x` behind `before`, the first with which no expression goes on. -/
structure ParseError.LiesAt (e : ParseError) (xs before : List Lexeme) (x : Lexeme) : Prop where
  split : ∃ after, xs = before ++ x :: after
  column_eq : e.column = x.column
  viable : Viable .expr before
  misfit : ¬ Viable .expr (before ++ [x])

/-- What a fault says about the lexemes of its line.  A lexeme that does not fit is the first with
which no expression goes on, and it is left over only if those in front of it are an expression; at
the end of the line, the lexemes are the start of an expression but not a whole one; and only an
expression nests too deep.  Where an operand is missing, the alternatives name what may come. -/
def ParseError.Earliest (e : ParseError) (xs : List Lexeme) : Prop :=
  match e.cause with
  | .unexpectedToken found expected =>
      ∃ before x, e.LiesAt xs before x ∧ found = x.token.text ∧ Alternatives before expected
  | .unclosedGroup (some found) _ => ∃ before x, e.LiesAt xs before x ∧ found = x.token.text
  | .trailingToken found =>
      ∃ before x, e.LiesAt xs before x ∧ found = x.token.text ∧ Derivable .expr before
  | .unexpectedEnd expected => Viable .expr xs ∧ ¬ Derivable .expr xs ∧ Alternatives xs expected
  | .unclosedGroup none _ => Viable .expr xs ∧ ¬ Derivable .expr xs
  | .tooDeep _ => Derivable .expr xs
  | .unexpectedCharacter _ => False
  | .empty => False

section

variable {xs before after : List Lexeme} {x : Lexeme} {s : Reading (.chain .expr)} {e : ParseError}

theorem liesAt_of_reads (reads : (Reading.chain .expr .done).Reads before s)
    (stuck : ∀ s', s.step x ≠ .next s') (column : e.column = x.column) :
    e.LiesAt (before ++ x :: after) before x where
  split := ⟨after, rfl⟩
  column_eq := column
  viable := viable_iff.mpr ⟨s, reads⟩
  misfit viable := by
    obtain ⟨s', step⟩ := (viable_concat_iff reads).mp viable
    exact stuck s' step

/-- The fault of a lexeme that is not read. -/
theorem earliest_of_step (reads : (Reading.chain .expr .done).Reads before s)
    (fail : s.step x = .fail e) : e.Earliest (before ++ x :: after) := by
  obtain ⟨column, causes⟩ := Reading.step_eq_fail fail
  have liesAt : e.LiesAt (before ++ x :: after) before x :=
    liesAt_of_reads reads (fun s' step => by rw [fail] at step; cases step) column
  unfold ParseError.Earliest
  rcases causes with ⟨expected, operand, cause⟩ | ⟨opened, cause⟩
  · rw [cause]
    exact ⟨before, x, liesAt, rfl, alternatives_of_reads reads operand⟩
  · rw [cause]
    exact ⟨before, x, liesAt, rfl⟩

/-- The fault of a line that ends too early. -/
theorem earliest_of_finish {column : Nat} (reads : (Reading.chain .expr .done).Reads xs s)
    (fail : s.finish column = .error e) : e.Earliest xs := by
  have viable : Viable .expr xs := viable_iff.mpr ⟨s, reads⟩
  have part : ¬ Derivable .expr xs := by
    rw [derivable_iff reads column, fail]
    rintro ⟨_, ⟨⟩⟩
  unfold ParseError.Earliest
  rcases Reading.finish_eq_error fail with ⟨expected, operand, cause⟩ | ⟨opened, cause⟩
  · rw [cause]
    exact ⟨viable, part, alternatives_of_reads reads operand⟩
  · rw [cause]
    exact ⟨viable, part⟩

/-- Lexemes whose groups do not nest too deep are read, and what is read is a line if nothing is
left over and it does not nest too deep. -/
theorem parseLexemes_eq_run (some : xs ≠ []) (flat : deepGroup? maxDepth 0 xs = none)
    (length : Nat) : parseLexemes xs length
      = match Reading.run (length + 1) (.chain .expr .done) xs with
        | .error e => .error e
        | .ok (_, x :: _) => .error ⟨.trailingToken x.token.text, x.column, []⟩
        | .ok (t, []) =>
          if maxDepth < t.depth then .error ⟨.tooDeep maxDepth, t.span.column, []⟩ else .ok t := by
  rw [parseLexemes, if_neg (by simpa using some), flat]
  rfl

/-- **Faults lie at the earliest lexeme.**  Whatever the lexemes, if their groups do not nest too
deep, a fault is at the first with which no expression goes on, or at the end of the line if there
is none, and it names what may come instead. -/
theorem parseLexemes_error {length : Nat} (some : xs ≠ [])
    (flat : deepGroup? maxDepth 0 xs = none) (h : parseLexemes xs length = .error e) :
    e.Earliest xs := by
  rw [parseLexemes_eq_run some flat] at h
  rcases (Reading.chain .expr .done).exists_reads xs with
    ⟨s, reads⟩ | ⟨before, x, after, s, rfl, reads, stuck⟩
  · have last := reads.run_append (length + 1) []
    rw [List.append_nil, Reading.run] at last
    rw [last] at h
    cases finish : s.finish (length + 1) with
    | error e' =>
        rw [finish] at h
        cases h
        exact earliest_of_finish reads finish
    | ok t =>
        rw [finish] at h
        simp only [Except.map] at h
        split at h
        · cases h
          exact (derivable_iff reads (length + 1)).mpr ⟨t, finish⟩
        · cases h
  · rw [reads.run_append, Reading.run] at h
    cases step : s.step x with
    | next s₁ => exact absurd step (stuck s₁)
    | stop t =>
        rw [step] at h
        cases h
        exact ⟨before, x, liesAt_of_reads reads stuck rfl, rfl, derivable_of_stop reads step⟩
    | fail e' =>
        rw [step] at h
        cases h
        exact earliest_of_step reads step

end

/-- The lexemes of `1 + - - 2`. -/
def doubleSign : List Lexeme :=
  [⟨.number "1", 0, 1⟩, ⟨.plus, 2, 3⟩, ⟨.minus, 4, 5⟩, ⟨.minus, 6, 7⟩, ⟨.number "2", 8, 9⟩]

/-- The second minus sign is not read: it stands behind a sign. -/
def doubleSignFault : ParseError :=
  ⟨.unexpectedToken "-" ["a number", "'('"], 7,
    [⟨"primary", 7⟩, ⟨"base", 5⟩, ⟨"factor", 5⟩, ⟨"term", 5⟩, ⟨"expr", 1⟩]⟩

theorem parseLexemes_doubleSign : doubleSign ≠ [] ∧ deepGroup? maxDepth 0 doubleSign = none ∧
    parseLexemes doubleSign 9 = .error doubleSignFault ∧ doubleSignFault.Earliest doubleSign := by
  have some : doubleSign ≠ [] := nofun
  have flat : deepGroup? maxDepth 0 doubleSign = none := rfl
  have fault : parseLexemes doubleSign 9 = .error doubleSignFault := rfl
  exact ⟨some, flat, fault, parseLexemes_error some flat fault⟩

end Calculator
