import Calculator.Proofs.Prefixes
import Calculator.Proofs.Shortening

/-!
# Trees — one group in place of another

Two lines that differ in what stands between one pair of parentheses are read alike: from there on,
the pending trees differ in that group, and in where their parts stand, and so do the trees at the
end.

* `Tree.Exchanged`: a tree, and the same tree with another group in place.
* `Reading.exchanged_step`, `Reading.exchanged_run`: reading keeps them alike, step by step.
* `exists_exchanged`: **a group is read as one operand**, whatever stands around it.
* `Tree.Exchanged.depth_le`, `Tree.Exchanged.follows`: the tree nests no deeper and evaluates to the
  same value, if the group does.
-/

namespace Calculator

section

variable (S R : ExprTree)

/-- The second tree is the first with groups of `R` in place of groups of `S`; the parts may stand
at other places. -/
inductive Tree.Exchanged : {r : Rule} → Tree r → Tree r → Prop
  | here (opening closing opening' closing' : Span) :
      Exchanged (.group opening S closing) (.group opening' R closing')
  | number (text : String) (span span' : Span) : Exchanged (.number text span) (.number text span')
  | group (opening closing opening' closing' : Span) {inner inner' : ExprTree}
      (h : Exchanged inner inner') :
      Exchanged (.group opening inner closing) (.group opening' inner' closing')
  | plain {operand operand' : Tree .primary} (h : Exchanged operand operand') :
      Exchanged (.plain operand) (.plain operand')
  | negated (minus minus' : Span) {operand operand' : Tree .primary}
      (h : Exchanged operand operand') :
      Exchanged (.negated minus operand) (.negated minus' operand')
  | head {l : Level} {operand operand' : Tree l.operand} (h : Exchanged operand operand') :
      Exchanged (.head operand) (.head operand')
  | link {l : Level} {left left' : Tree (.chain l)} (op : Operator) (binds : op.level = l)
      (sign sign' : Span) {right right' : Tree l.operand} (hl : Exchanged left left')
      (hr : Exchanged right right') :
      Exchanged (.link left op binds sign right) (.link left' op binds sign' right')

/-- Pending trees whose parts are exchanged. -/
inductive Pending.Exchanged {goal : Rule} : {r : Rule} → Pending goal r → Pending goal r → Prop
  | done : Exchanged .done .done
  | first {l : Level} (column column' : Nat) {outer outer' : Pending goal (.chain l)}
      (h : Exchanged outer outer') : Exchanged (.first column outer) (.first column' outer')
  | right {l : Level} (column column' : Nat) {left left' : Tree (.chain l)} (op : Operator)
      (binds : op.level = l) (sign sign' : Span) {outer outer' : Pending goal (.chain l)}
      (hl : Tree.Exchanged S R left left') (h : Exchanged outer outer') :
      Exchanged (.right column left op binds sign outer)
        (.right column' left' op binds sign' outer')
  | plain (column column' : Nat) {outer outer' : Pending goal .base} (h : Exchanged outer outer') :
      Exchanged (.plain column outer) (.plain column' outer')
  | negated (minus minus' : Span) {outer outer' : Pending goal .base} (h : Exchanged outer outer') :
      Exchanged (.negated minus outer) (.negated minus' outer')
  | group (opening opening' : Span) {outer outer' : Pending goal .primary}
      (h : Exchanged outer outer') : Exchanged (.group opening outer) (.group opening' outer')

/-- Readings that stand at the same place, in exchanged trees. -/
inductive Reading.Exchanged {goal : Rule} : Reading goal → Reading goal → Prop
  | chain (l : Level) {p p' : Pending goal (.chain l)} (h : Pending.Exchanged S R p p') :
      Exchanged (.chain l p) (.chain l p')
  | base {p p' : Pending goal .base} (h : Pending.Exchanged S R p p') :
      Exchanged (.base p) (.base p')
  | primary {p p' : Pending goal .primary} (h : Pending.Exchanged S R p p') :
      Exchanged (.primary p) (.primary p')
  | after {t t' : Tree .primary} {p p' : Pending goal .primary} (ht : Tree.Exchanged S R t t')
      (h : Pending.Exchanged S R p p') : Exchanged (.after t p) (.after t' p')

end

variable {S R : ExprTree} {goal : Rule}

/-! ### Exchanged trees -/

namespace Tree.Exchanged

theorem refl {r : Rule} (t : Tree r) : Tree.Exchanged S R t t := by
  induction t with
  | number text span => exact .number text span span
  | group opening inner closing ih => exact .group _ _ _ _ ih
  | plain operand ih => exact .plain ih
  | negated minus operand ih => exact .negated _ _ ih
  | head operand ih => exact .head ih
  | link left op binds sign right ihl ihr => exact .link op binds _ _ ihl ihr

/-- A tree nests no deeper with a group in place that nests no deeper. -/
theorem deepest_le (le : R.depth ≤ S.depth) {r : Rule} {t t' : Tree r}
    (h : Tree.Exchanged S R t t') : t'.links = t.links ∧ t'.deepest ≤ t.deepest := by
  induction h with
  | here => exact ⟨rfl, Nat.succ_le_succ le⟩
  | number => exact ⟨rfl, Nat.le_refl _⟩
  | group _ _ _ _ _ ih => exact ⟨rfl, Nat.succ_le_succ (Nat.add_le_add ih.2 (Nat.le_of_eq ih.1))⟩
  | plain _ ih => exact ⟨rfl, ih.2⟩
  | negated _ _ _ ih => exact ⟨rfl, Nat.succ_le_succ ih.2⟩
  | head _ ih => exact ⟨rfl, Nat.add_le_add ih.2 (Nat.le_of_eq ih.1)⟩
  | link op binds _ _ _ _ ihl ihr =>
      exact ⟨congrArg (· + 1) ihl.1,
        max_le_max ihl.2 (Nat.add_le_add ihr.2 (Nat.le_of_eq ihr.1))⟩

theorem depth_le (le : R.depth ≤ S.depth) {r : Rule} {t t' : Tree r}
    (h : Tree.Exchanged S R t t') : t'.depth ≤ t.depth :=
  Nat.add_le_add (h.deepest_le le).2 (Nat.le_of_eq (h.deepest_le le).1)

/-- A tree evaluates to a shortened result with a group in place that does. -/
theorem follows {limits : Limits}
    (inner : Follows (R.toExpr.evaluate limits) (S.toExpr.evaluate limits)) {r : Rule}
    {t t' : Tree r} (h : Tree.Exchanged S R t t') :
    Follows (t'.toExpr.evaluate limits) (t.toExpr.evaluate limits) := by
  induction h with
  | here => exact inner
  | number text span span' =>
      simp only [toExpr, Expr.evaluate, evaluateLiteral]
      cases Decimal.ofText (withoutSeparators text) with
      | error e => trivial
      | ok d => exact Decimal.Shortens.refl d
  | group _ _ _ _ _ ih => exact ih
  | plain _ ih => exact ih
  | negated _ _ _ ih => exact Expr.neg_follows _ _ ih
  | head _ ih => exact ih
  | link op binds _ _ _ _ ihl ihr => exact Expr.binary_follows op _ _ ihl ihr

end Tree.Exchanged

theorem Pending.Exchanged.refl {r : Rule} (p : Pending goal r) : Pending.Exchanged S R p p := by
  induction p with
  | done => exact .done
  | first column outer ih => exact .first _ _ ih
  | right column left op binds sign outer ih => exact .right _ _ op binds _ _ (.refl left) ih
  | plain column outer ih => exact .plain _ _ ih
  | negated minus outer ih => exact .negated _ _ ih
  | group opening outer ih => exact .group _ _ ih

/-! ### Reading alike -/

namespace Reading

theorem exchanged_operand (l : Level) {p p' : Pending goal l.operand}
    (h : Pending.Exchanged S R p p') : Reading.Exchanged S R (operand l p) (operand l p') := by
  cases l with
  | expr => exact .chain .term h
  | term => exact .chain .factor h
  | factor => exact .base h

theorem exchanged_descend (column column' : Nat) (l : Level) {p p' : Pending goal (.chain l)}
    (h : Pending.Exchanged S R p p') :
    Pending.Exchanged S R (p.descend column l) (p'.descend column' l) := by
  cases l with
  | expr => exact .first _ _ (.first _ _ (.first _ _ h))
  | term => exact .first _ _ (.first _ _ h)
  | factor => exact .first _ _ h

variable {token : Token} {span : Span} (span' : Span)

theorem exchanged_atPrimary {expected : List String} {p p' : Pending goal .primary}
    (h : Pending.Exchanged S R p p') {s : Reading goal}
    (read : atPrimary expected p ⟨token, span⟩ = .next s) :
    ∃ s', atPrimary expected p' ⟨token, span'⟩ = .next s' ∧ Reading.Exchanged S R s s' := by
  cases token <;> cases read
  · exact ⟨_, rfl, .after (.number _ _ _) h⟩
  · exact ⟨_, rfl, .chain .expr (.group _ _ h)⟩

theorem exchanged_atBase {p p' : Pending goal .base} (h : Pending.Exchanged S R p p')
    {s : Reading goal} (read : atBase p ⟨token, span⟩ = .next s) :
    ∃ s', atBase p' ⟨token, span'⟩ = .next s' ∧ Reading.Exchanged S R s s' := by
  simp only [atBase] at read ⊢
  split at read
  · cases read
    exact ⟨_, rfl, .primary (.negated _ _ h)⟩
  · exact exchanged_atPrimary span' (.plain _ _ h) read

/-- Behind exchanged trees, a lexeme is read alike. -/
theorem exchanged_behind {r : Rule} {t t' : Tree r} {p p' : Pending goal r}
    (ht : Tree.Exchanged S R t t') (h : Pending.Exchanged S R p p') {s : Reading goal}
    (read : behind ⟨token, span⟩ t p = .next s) :
    ∃ s', behind ⟨token, span'⟩ t' p' = .next s' ∧ Reading.Exchanged S R s s' := by
  induction h with
  | done => cases read
  | @first l column column' outer outer' h ih =>
      simp only [behind] at read ⊢
      split at read
      · cases read
        exact ⟨_, rfl, exchanged_operand l (.right _ _ _ _ _ _ (.head ht) h)⟩
      · exact ih (.head ht) read
  | @right l column column' left left' op binds sign sign' outer outer' hl h ih =>
      have joined := Tree.Exchanged.link op binds sign sign' hl ht
      simp only [behind] at read ⊢
      split at read
      · cases read
        exact ⟨_, rfl, exchanged_operand l (.right _ _ _ _ _ _ joined h)⟩
      · exact ih joined read
  | plain _ _ _ ih => exact ih (.plain ht) read
  | negated _ _ _ ih => exact ih (.negated _ _ ht) read
  | group opening opening' h ih =>
      cases token <;> cases read
      exact ⟨_, rfl, .after (.group _ _ _ _ ht) h⟩

/-- **One lexeme is read alike** in exchanged trees. -/
theorem exchanged_step {s s' s₁ : Reading goal} (h : Reading.Exchanged S R s s')
    (read : s.step ⟨token, span⟩ = .next s₁) :
    ∃ s₁', s'.step ⟨token, span'⟩ = .next s₁' ∧ Reading.Exchanged S R s₁ s₁' := by
  cases h with
  | chain l h => exact exchanged_atBase span' (exchanged_descend _ _ l h) read
  | base h => exact exchanged_atBase span' h read
  | primary h => exact exchanged_atPrimary span' h read
  | after ht h => exact exchanged_behind span' ht h read

theorem exchanged_close {column column' : Nat} {r : Rule} {t t' : Tree r} {p p' : Pending goal r}
    (ht : Tree.Exchanged S R t t') (h : Pending.Exchanged S R p p') {T : Tree goal}
    (closed : close column t p = .ok T) :
    ∃ T', close column' t' p' = .ok T' ∧ Tree.Exchanged S R T T' := by
  induction h with
  | done =>
      cases closed
      exact ⟨_, rfl, ht⟩
  | first _ _ _ ih => exact ih (.head ht) closed
  | right _ _ op binds _ _ hl _ ih => exact ih (.link op binds _ _ hl ht) closed
  | plain _ _ _ ih => exact ih (.plain ht) closed
  | negated _ _ _ ih => exact ih (.negated _ _ ht) closed
  | group => cases closed

theorem exchanged_finish {column : Nat} (column' : Nat) {s s' : Reading goal}
    (h : Reading.Exchanged S R s s') {T : Tree goal} (finished : s.finish column = .ok T) :
    ∃ T', s'.finish column' = .ok T' ∧ Tree.Exchanged S R T T' := by
  cases h with
  | chain => cases finished
  | base => cases finished
  | primary => cases finished
  | after ht h => exact exchanged_close ht h finished

/-- **The same tokens are read alike** in exchanged trees, up to the end of the line. -/
theorem exchanged_run {column : Nat} (column' : Nat) {s s' : Reading goal}
    (h : Reading.Exchanged S R s s') {xs ys : List Lexeme} (same : tokensOf ys = tokensOf xs)
    {T : Tree goal} (read : run column s xs = .ok (T, [])) :
    ∃ T', run column' s' ys = .ok (T', []) ∧ Tree.Exchanged S R T T' := by
  induction xs generalizing s s' ys with
  | nil =>
      obtain rfl : ys = [] := List.map_eq_nil_iff.mp same
      rw [run] at read
      rcases hf : s.finish column with e | T₀
      · rw [hf] at read
        cases read
      · rw [hf] at read
        cases read
        obtain ⟨T', finished, exchanged⟩ := exchanged_finish column' h hf
        exact ⟨T', by rw [run, finished]; rfl, exchanged⟩
  | cons x xs ih =>
      rcases ys with - | ⟨y, ys⟩
      · cases same
      obtain ⟨token, span⟩ := x
      obtain ⟨token', span'⟩ := y
      obtain ⟨rfl, rest⟩ : token' = token ∧ tokensOf ys = tokensOf xs := List.cons.inj same
      obtain ⟨s₁, step, read⟩ := exists_step read
      obtain ⟨s₁', step', h⟩ := exchanged_step span' h step
      rw [run, step']
      exact ih h rest read

/-! ### Groups -/

/-- A parenthesis that is read opens a group. -/
theorem exists_group {s s' : Reading goal} {span : Span} (h : s.step ⟨.lparen, span⟩ = .next s') :
    ∃ p : Pending goal .primary, s' = .chain .expr (.group span p) := by
  cases s with
  | chain l p =>
      cases h
      exact ⟨_, rfl⟩
  | base p =>
      cases h
      exact ⟨_, rfl⟩
  | primary p =>
      cases h
      exact ⟨_, rfl⟩
  | after t p =>
      rcases behind_eq_next h with ⟨_, _, -, operates, -⟩ | ⟨_, _, -, close, -⟩
      · exact absurd rfl operates
      · cases close

/-- What is between parentheses is read as one group. -/
theorem run_group (t : ExprTree) (p : Pending goal .primary) (column : Nat) (opening closing : Span)
    (rest : List Lexeme) : run column (.chain .expr (.group opening p))
        (t.lexemes ++ ⟨.rparen, closing⟩ :: rest)
      = run column (.after (.group opening t closing) p) rest := by
  rw [run_chain, run_cons, step_behind t _ _ rfl]
  rfl

end Reading

/-- **A group is read as one operand.**  If a line with a group of `S` derives a tree, so does the
line with `R` in its place, whatever stands in front of the group and behind it, and the trees
differ in the group only. -/
theorem exists_exchanged {T : ExprTree} {before after after' : List Lexeme}
    {opening closing closing' : Span} (same : tokensOf after' = tokensOf after)
    (h : T.lexemes = before ++ ⟨.lparen, opening⟩ :: (S.lexemes ++ ⟨.rparen, closing⟩ :: after)) :
    ∃ T' : ExprTree, Tree.Exchanged S R T T' ∧ T'.lexemes
      = before ++ ⟨.lparen, opening⟩ :: (R.lexemes ++ ⟨.rparen, closing'⟩ :: after') := by
  have whole := parseChain_of_lexemes T 0 [] (by simp)
  rw [List.append_nil, h, parseChain] at whole
  -- what stands in front of the group leads to one reading in both lines
  obtain ⟨s, reads⟩ := Reading.exists_reads_of_run whole
  rw [reads.run_append] at whole
  obtain ⟨s', step, whole⟩ := Reading.exists_step whole
  obtain ⟨p, rfl⟩ := Reading.exists_group step
  -- behind the group, the readings differ in the group that was read last
  rw [Reading.run_group] at whole
  obtain ⟨T', read, exchanged⟩ := Reading.exchanged_run 0
    (.after (.here opening closing opening closing') (.refl p)) same whole
  refine ⟨T', exchanged, ?_⟩
  have lexemes : parseChain 0 .expr (before ++ ⟨.lparen, opening⟩ ::
      (R.lexemes ++ ⟨.rparen, closing'⟩ :: after')) = .ok (T', []) := by
    rw [parseChain, reads.run_append, Reading.run, step]
    dsimp only
    rw [Reading.run_group]
    exact read
  have := parseChain_lexemes lexemes
  rwa [List.append_nil] at this

end Calculator
