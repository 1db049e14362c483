import Calculator.Proofs.Columns
import Calculator.Proofs.Relaid

/-!
# Lines — layout

What a line is answered does not depend on the blanks between its tokens, nor on the separators in
its numerals.  Every line is relaid to one whose tokens have one byte each, the same line for all
layouts of its tokens; a fault is traced back from there to the token it lies at.

* `relaid_getElem`: relaid by the numbers of its tokens, a line has its token `i` at byte `i`.
* `map_relaid_eq`: so two layouts of the same tokens are relaid to the same line.
* `answerLine_layout`: **the layout of a line does not matter**, except to the columns of its
  faults, which are those of the same token.
-/

namespace Calculator

/-! ### Numbers of tokens -/

/-- The number of lexemes that start in front of a byte. -/
def numberAt (xs : List Lexeme) (offset : Nat) : Nat := xs.countP fun x => x.span.start < offset

theorem numberAt_mono (xs : List Lexeme) : Monotone (numberAt xs) := by
  intro a b le
  refine List.countP_mono_left fun x _ before => ?_
  exact decide_eq_true (Nat.lt_of_lt_of_le (of_decide_eq_true before) le)

section

variable {line : List Char} {start stop : Nat} {xs : List Lexeme}

/-- In front of a lexeme and behind it, its number and the next. -/
theorem Tiled.numberAt_eq {before after : List Lexeme} {x : Lexeme}
    (tiled : Tiled line start stop (before ++ x :: after)) :
    numberAt (before ++ x :: after) x.span.start = before.length ∧
      numberAt (before ++ x :: after) x.span.stop = before.length + 1 := by
  obtain ⟨-, later, apart⟩ := List.pairwise_append.mp tiled.ordered
  obtain ⟨behind, -⟩ := List.pairwise_cons.mp later
  have nonempty (y : Lexeme) (mem : y ∈ before ++ x :: after) : y.span.start < y.span.stop :=
    (tiled.bounds y mem).2.1
  have self := nonempty x (by simp)
  have front (offset : Nat) (le : x.span.start ≤ offset) :
      before.countP (fun y => y.span.start < offset) = before.length := by
    refine List.countP_eq_length.mpr fun y mem => decide_eq_true ?_
    have := nonempty y (List.mem_append_left _ mem)
    have := apart y mem x List.mem_cons_self
    omega
  have rest (offset : Nat) (le : offset ≤ x.span.stop) :
      after.countP (fun y => y.span.start < offset) = 0 := by
    refine List.countP_eq_zero.mpr fun y mem lt => ?_
    have := behind y mem
    have := of_decide_eq_true lt
    omega
  constructor
  · rw [numberAt, List.countP_append, List.countP_cons, front _ (Nat.le_refl _), rest _ self.le]
    simp
  · rw [numberAt, List.countP_append, List.countP_cons, front _ self.le, rest _ (Nat.le_refl _)]
    simp [self]

/-- Relaid by the numbers of its lexemes, a line has its lexeme `i` at byte `i`. -/
theorem Tiled.relaid_getElem (tiled : Tiled line start stop xs) (i : Nat) (h : i < xs.length) :
    xs[i].relaid (numberAt xs) = ⟨xs[i].token.plain, i, i + 1⟩ := by
  have split : xs = xs.take i ++ xs[i] :: xs.drop (i + 1) := by
    rw [List.getElem_cons_drop, List.take_append_drop]
  have length : (xs.take i).length = i := by
    rw [List.length_take, Nat.min_eq_left h.le]
  rw [split] at tiled
  obtain ⟨first, last⟩ := tiled.numberAt_eq
  rw [← split, length] at first last
  rw [Lexeme.relaid, Span.relaid, first, last]

/-- Behind all lexemes, their number. -/
theorem Tiled.numberAt_stop (tiled : Tiled line start stop xs) : numberAt xs stop = xs.length := by
  refine List.countP_eq_length.mpr fun x mem => decide_eq_true ?_
  have := tiled.bounds x mem
  omega

/-- Two layouts of the same tokens are relaid to the same lexemes. -/
theorem map_relaid_eq {line' : List Char} {start' stop' : Nat} {ys : List Lexeme}
    (tiled : Tiled line start stop xs) (tiled' : Tiled line' start' stop' ys)
    (same : ys.map (·.token.plain) = xs.map (·.token.plain)) :
    ys.map (Lexeme.relaid (numberAt ys)) = xs.map (Lexeme.relaid (numberAt xs)) := by
  have length : ys.length = xs.length := by simpa using congrArg List.length same
  refine List.ext_getElem (by simp [length]) fun i hy hx => ?_
  rw [List.length_map] at hy hx
  have token : ys[i].token.plain = xs[i].token.plain := by
    have lookup := congrArg (·[i]?) same
    simpa [hx, hy] using lookup
  rw [List.getElem_map, List.getElem_map, tiled.relaid_getElem, tiled'.relaid_getElem, token]

end

/-! ### Kinds of faults -/

/-- The kinds of faults. -/
inductive Failure.Kind where
  | unexpectedCharacter
  | unexpectedToken
  | unexpectedEnd
  | unclosedGroup
  | trailingToken
  | empty
  | tooDeep
  | divisionByZero
  | fractionalExponent
  | exponentTooLarge
  | resultTooLarge
  | scaleOverflow
  | invalidLiteral
deriving DecidableEq

/-- The kind of a parse error. -/
def ParseError.Cause.kind : ParseError.Cause → Failure.Kind
  | .unexpectedCharacter _ => .unexpectedCharacter
  | .unexpectedToken _ _ => .unexpectedToken
  | .unexpectedEnd _ => .unexpectedEnd
  | .unclosedGroup _ _ => .unclosedGroup
  | .trailingToken _ => .trailingToken
  | .empty => .empty
  | .tooDeep _ => .tooDeep

/-- The kind of an evaluation error. -/
def EvalError.Cause.kind : EvalError.Cause → Failure.Kind
  | .divisionByZero _ => .divisionByZero
  | .fractionalExponent _ => .fractionalExponent
  | .exponentTooLarge _ _ => .exponentTooLarge
  | .resultTooLarge _ _ => .resultTooLarge
  | .scaleOverflow => .scaleOverflow
  | .invalidLiteral _ => .invalidLiteral

namespace Failure

/-- The kind of a fault, whatever it names and wherever it lies. -/
def kind : Failure → Kind
  | .parsing e => e.cause.kind
  | .evaluation e => e.cause.kind

variable (f : Nat → Nat) (failure : Failure)

theorem kind_relaid : (failure.relaid f).kind = failure.kind := by
  rcases failure with ⟨cause, column, trace⟩ | e
  · cases cause <;> rfl
  · rfl

theorem place_relaid : (failure.relaid f).place = failure.place := by
  rcases failure with ⟨cause, column, trace⟩ | e
  · rcases cause with - | - | - | ⟨- | found, -⟩ | - | - | - <;> rfl
  · rfl

theorem column_relaid : (failure.relaid f).column = columnAt f failure.column := by
  cases failure <;> rfl

end Failure

/-! ### Layouts -/

/-- Two columns in two layouts of the same tokens are those of the same token, or both are behind
the last one, at the ends of the lines. -/
inductive SamePlace (xs ys : List Lexeme) (last last' : Nat) : (column column' : Nat) → Prop
  | token {i : Nat} {x y : Lexeme} (hx : xs[i]? = some x) (hy : ys[i]? = some y) :
      SamePlace xs ys last last' x.column y.column
  | lineEnd : SamePlace xs ys last last' last last'

/-- A fault at a token lies at the one with the number that its column has among the tokens. -/
theorem Tiled.exists_getElem? {line : List Char} {start stop : Nat} {xs : List Lexeme}
    (tiled : Tiled line start stop xs) {column : Nat} (mem : column ∈ columnsOf xs) :
    ∃ i x, xs[i]? = some x ∧ column = x.column ∧ columnAt (numberAt xs) column = i + 1 := by
  obtain ⟨x, lexeme, rfl⟩ := List.mem_map.mp mem
  obtain ⟨i, h, rfl⟩ := List.getElem_of_mem lexeme
  have start := congrArg (·.span.start) (tiled.relaid_getElem i h)
  exact ⟨i, xs[i], List.getElem?_eq_getElem h, rfl, congrArg (· + 1) start⟩

theorem samePlace_of_relaid {line line' : List Char} {last last' : Nat} {xs ys : List Lexeme}
    (tiled : Tiled line 0 last xs) (tiled' : Tiled line' 0 last' ys) {failure failure' : Failure}
    (within : failure.Within (columnsOf xs) (last + 1))
    (within' : failure'.Within (columnsOf ys) (last' + 1))
    (same : failure'.relaid (numberAt ys) = failure.relaid (numberAt xs)) :
    SamePlace xs ys (last + 1) (last' + 1) failure.column failure'.column := by
  have place : failure'.place = failure.place := by
    rw [← failure'.place_relaid, same, failure.place_relaid]
  have column : columnAt (numberAt ys) failure'.column = columnAt (numberAt xs) failure.column := by
    rw [← Failure.column_relaid, same, Failure.column_relaid]
  have lies := within.place
  have lies' := within'.place
  rw [place] at lies'
  cases h : failure.place with
  | character =>
      rw [h] at lies
      exact lies.elim
  | token =>
      rw [h] at lies lies'
      obtain ⟨i, x, hx, columnX, number⟩ := tiled.exists_getElem? lies
      obtain ⟨j, y, hy, columnY, number'⟩ := tiled'.exists_getElem? lies'
      -- the relaid column gives the number of the token, the same in both layouts
      obtain rfl : j = i := by omega
      rw [columnX, columnY]
      exact .token hx hy
  | lineEnd =>
      rw [h] at lies lies'
      rw [lies, lies']
      exact .lineEnd

/-- Results that are the same but for what is made of their faults. -/
theorem cases_of_mapError_eq {ε α : Type} {r r' : Except ε α} {f g : ε → ε}
    (h : r.mapError f = r'.mapError g) : (∃ a, r = .ok a ∧ r' = .ok a) ∨
      ∃ e e', r = .error e ∧ r' = .error e' ∧ f e = g e' := by
  cases r with
  | error e =>
      cases r' with
      | error e' => exact .inr ⟨e, e', rfl, rfl, Except.error.inj h⟩
      | ok a' => cases h
  | ok a =>
      cases r' with
      | error e' => cases h
      | ok a' => exact .inl ⟨a, rfl, congrArg _ (Except.ok.inj h).symm⟩

/-- **The layout of a line does not matter.**  Lines of the same tokens, whatever the blanks between
them and the separators in their numerals, have the same result, or faults of the same kind at the
same token, or at their ends. -/
theorem answerLine_layout {text text' : String} {xs ys : List Lexeme}
    (scanned : scan text = .ok xs) (scanned' : scan text' = .ok ys)
    (same : ys.map (·.token.plain) = xs.map (·.token.plain)) (limits : Limits) :
    (∃ r, answerLine limits text = .ok r ∧ answerLine limits text' = .ok r) ∨
      ∃ d d', answerLine limits text = .error d ∧ answerLine limits text' = .error d' ∧
        d'.failure.kind = d.failure.kind ∧
          SamePlace xs ys (d.line.utf8ByteSize + 1) (d'.line.utf8ByteSize + 1)
            d.column d'.column := by
  rw [← scan_trimLineEnd] at scanned scanned'
  have tiled := tiled_of_scan scanned
  have tiled' := tiled_of_scan scanned'
  have length : ys.length = xs.length := by simpa using congrArg List.length same
  -- both lines are relaid to the one that has token `i` at byte `i`
  have relaid := evaluateLexemes_relaid (numberAt_mono xs) limits xs (trimLineEnd text).utf8ByteSize
  have relaid' :=
    evaluateLexemes_relaid (numberAt_mono ys) limits ys (trimLineEnd text').utf8ByteSize
  rw [map_relaid_eq tiled tiled' same, tiled'.numberAt_stop, length, ← tiled.numberAt_stop,
    relaid] at relaid'
  simp only [answerLine_eq, evaluateLine, scanned, scanned']
  rcases cases_of_mapError_eq relaid' with
    ⟨d, value, value'⟩ | ⟨failure, failure', fault, fault', moved⟩
  · rw [value, value']
    exact .inl ⟨_, rfl, rfl⟩
  · rw [fault, fault']
    refine .inr ⟨_, _, rfl, rfl, ?_, samePlace_of_relaid tiled tiled'
      (evaluateLexemes_error_within fault) (evaluateLexemes_error_within fault') moved.symm⟩
    rw [← failure'.kind_relaid, ← moved, failure.kind_relaid]

/-- The lexemes of `1,000/(2-2)`. -/
def denseQuotient : List Lexeme :=
  [⟨.number "1,000", 0, 5⟩, ⟨.slash, 5, 6⟩, ⟨.lparen, 6, 7⟩, ⟨.number "2", 7, 8⟩, ⟨.minus, 8, 9⟩,
    ⟨.number "2", 9, 10⟩, ⟨.rparen, 10, 11⟩]

/-- The lexemes of `1000 / ( 2 - 2 )`. -/
def wideQuotient : List Lexeme :=
  [⟨.number "1000", 0, 4⟩, ⟨.slash, 5, 6⟩, ⟨.lparen, 7, 8⟩, ⟨.number "2", 9, 10⟩, ⟨.minus, 11, 12⟩,
    ⟨.number "2", 13, 14⟩, ⟨.rparen, 15, 16⟩]

/-- What is wrong with `1,000/(2-2)`. -/
def denseFault : Diagnostic := ⟨"1,000/(2-2)", .evaluation ⟨.divisionByZero "(2 - 2)", 8⟩⟩

/-- What is wrong with `1000 / ( 2 - 2 )`. -/
def wideFault : Diagnostic := ⟨"1000 / ( 2 - 2 )", .evaluation ⟨.divisionByZero "(2 - 2)", 10⟩⟩

/-- Both lines have a fault at the first number of the divisor. -/
theorem answerLine_layout_quotient :
    scan "1,000/(2-2)" = .ok denseQuotient ∧ scan "1000 / ( 2 - 2 )\n" = .ok wideQuotient ∧
      wideQuotient.map (·.token.plain) = denseQuotient.map (·.token.plain) ∧
      answerLine .standard "1,000/(2-2)" = .error denseFault ∧
      answerLine .standard "1000 / ( 2 - 2 )\n" = .error wideFault ∧
      wideFault.failure.kind = denseFault.failure.kind ∧
      SamePlace denseQuotient wideQuotient 12 17 8 10 := by
  have dense : scan "1,000/(2-2)" = .ok denseQuotient := by decide
  have wide : scan "1000 / ( 2 - 2 )\n" = .ok wideQuotient := by decide
  have same : wideQuotient.map (·.token.plain) = denseQuotient.map (·.token.plain) := by decide
  have fault : answerLine .standard "1,000/(2-2)" = .error denseFault := by decide
  have fault' : answerLine .standard "1000 / ( 2 - 2 )\n" = .error wideFault := by decide
  rcases answerLine_layout dense wide same .standard with
    ⟨r, answered, -⟩ | ⟨d, d', failed, failed', kind, place⟩
  · cases fault.symm.trans answered
  · obtain rfl := Except.error.inj (fault.symm.trans failed)
    obtain rfl := Except.error.inj (fault'.symm.trans failed')
    exact ⟨dense, wide, same, fault, fault', kind, place⟩

end Calculator
