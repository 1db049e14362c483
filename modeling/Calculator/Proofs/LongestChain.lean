import Calculator.Proofs.Prefixes

/-!
# Trees — the longest chain

A chain of any level may be read on its own, and what does not belong to it is left over.  Reading
stops in front of the first lexeme that the chain does not go on with, before it is known whether
the lexemes behind it make sense.  Nothing is lost by that: a chain that goes on further would have
been read on, since behind what it derives so far reading is where it was when it stopped.

* `Reading.suffix_of_run`: what is left over is the end of what was given.
* `Reading.extends_of_stop`, `Reading.stops_of_run`: it does not start with an operator that the
  chain goes on with.
* `parseChain_eq_ok_iff`: a chain is read if and only if it derives what is in front of such a rest.
* `parseChain_longest`: **what is read is the longest chain** that the lexemes start with.
-/

namespace Calculator

/-- The lexemes do not start with an operator of the level or of a tighter one. -/
def Stops (l : Level) (xs : List Lexeme) : Prop :=
  ∀ x ∈ xs.head?, ∀ op, x.token.operator? = some op → op.within l = false

theorem stops_iff {l : Level} {xs : List Lexeme} :
    Stops l xs ↔ ∀ x ∈ xs.head?, x.token.extends (.chain l) = false := by
  refine forall₂_congr fun x _ => ?_
  rw [Token.extends]
  cases x.token.operator? <;> simp

namespace Reading

variable {goal : Rule} {x : Lexeme}

/-- What operates neither on the operands of a chain nor on the chain does not extend it. -/
theorem extends_of_operatorAt? {token : Token} {l : Level}
    (inner : token.extends l.operand = false) (none : token.operatorAt? l = none) :
    token.extends (.chain l) = false := by
  unfold Token.extends Token.operatorAt? at *
  cases ho : token.operator? with
  | none => rfl
  | some op => cases l <;> cases op <;> simp_all [Operator.within, Operator.level, Level.operand]

theorem extends_of_behind {r : Rule} {t : Tree r} {p : Pending goal r} {t' : Tree goal}
    (inner : x.token.extends r = false) (stop : behind x t p = .stop t') :
    x.token.extends goal = false := by
  induction p with
  | done => exact inner
  | first column outer ih =>
      rw [behind] at stop
      split at stop
      · cases stop
      · rename_i none
        exact ih (extends_of_operatorAt? inner none) stop
  | right column left op binds sign outer ih =>
      rw [behind] at stop
      split at stop
      · cases stop
      · rename_i none
        exact ih (extends_of_operatorAt? inner none) stop
  | plain column outer ih => exact ih rfl stop
  | negated minus outer ih => exact ih rfl stop
  | group opening outer ih =>
      rw [behind] at stop
      split at stop <;> cases stop

/-- A tree is complete only in front of a lexeme that does not extend it. -/
theorem extends_of_stop {s : Reading goal} {t : Tree goal} (stop : s.step x = .stop t) :
    x.token.extends goal = false := by
  obtain ⟨token, span⟩ := x
  cases s with
  | chain l p => cases token <;> cases stop
  | base p => cases token <;> cases stop
  | primary p => cases token <;> cases stop
  | after t' p => exact extends_of_behind (r := .primary) rfl stop

variable {column : Nat} {xs rest : List Lexeme}

/-- What is left over is the end of what was given. -/
theorem suffix_of_run {s : Reading goal} {t : Tree goal} (h : run column s xs = .ok (t, rest)) :
    rest <:+ xs := by
  induction xs generalizing s with
  | nil =>
      rw [run] at h
      cases finished : s.finish column <;> rw [finished] at h <;> cases h
      exact List.suffix_refl []
  | cons x xs ih =>
      rw [run] at h
      split at h
      · exact (ih h).trans (List.suffix_cons x xs)
      · cases h
        exact List.suffix_refl _
      · cases h

/-- What is left over does not start with an operator that the chain goes on with. -/
theorem stops_of_run {l : Level} {s : Reading (.chain l)} {t : Tree (.chain l)}
    (h : run column s xs = .ok (t, rest)) : Stops l rest := by
  induction xs generalizing s with
  | nil =>
      rw [run] at h
      cases finished : s.finish column <;> rw [finished] at h <;> cases h
      rintro _ ⟨⟩
  | cons x xs ih =>
      rw [run] at h
      split at h
      · exact ih h
      · rename_i stop
        cases h
        refine stops_iff.mpr ?_
        rintro _ ⟨⟩
        exact extends_of_stop stop
      · cases h

end Reading

variable {column : Nat} {l : Level} {xs rest : List Lexeme} {t : Tree (.chain l)}

/-- A chain is read if and only if it derives what is in front of a rest that it does not go on
with. -/
theorem parseChain_eq_ok_iff :
    parseChain column l xs = .ok (t, rest) ↔ t.lexemes ++ rest = xs ∧ Stops l rest := by
  constructor
  · intro h
    exact ⟨parseChain_lexemes h, Reading.stops_of_run h⟩
  · rintro ⟨rfl, stops⟩
    exact parseChain_of_lexemes t column rest (stops_iff.mp stops)

/-- Behind what any chain derives, as much is read of the lexemes, or more. -/
theorem length_le_of_parseChain (h : parseChain column l xs = .ok (t, rest)) {ys : List Lexeme}
    (front : ys <+: xs) (derivable : Derivable l ys) : ys.length ≤ t.lexemes.length := by
  obtain ⟨zs, rfl⟩ := front
  obtain ⟨t', derives⟩ := derivable
  have split := congrArg List.length (parseChain_lexemes h)
  -- reading comes by the other chain, whether it goes on behind it or not
  rw [parseChain, ← derives.lexemes_eq, Reading.run_chain] at h
  have shorter := (Reading.suffix_of_run h).length_le
  rw [List.length_append, List.length_append] at split
  omega

/-- **What is read is the longest chain.**  What a rule reads on its own is some lexemes that the
tree derives from the rule, and the lexemes start with nothing longer that the rule derives.  The
first lexeme that is left over is no operator of the level or of a tighter one.  What is behind it
does not matter: in front of any rest that starts with such a lexeme, or of none, the same is
read. -/
theorem parseChain_longest (h : parseChain column l xs = .ok (t, rest)) :
    ∃ front, xs = front ++ rest ∧ front ≠ [] ∧ Derives front t ∧
      (∀ ys, ys <+: xs → Derivable l ys → ys.length ≤ front.length) ∧ Stops l rest ∧
      ∀ column' rest', Stops l rest' →
        parseChain column' l (front ++ rest') = .ok (t, rest') := by
  obtain ⟨split, stops⟩ := parseChain_eq_ok_iff.mp h
  refine ⟨t.lexemes, split.symm, t.lexemes_ne_nil, t.derives, fun ys => length_le_of_parseChain h,
    stops, fun column' rest' stops' => ?_⟩
  exact parseChain_eq_ok_iff.mpr ⟨rfl, stops'⟩

/-- The lexemes of `-(1 + 2) * 3 - * )`. -/
def overrun : List Lexeme :=
  [⟨.minus, 0, 1⟩, ⟨.lparen, 1, 2⟩, ⟨.number "1", 2, 3⟩, ⟨.plus, 4, 5⟩, ⟨.number "2", 6, 7⟩,
    ⟨.rparen, 7, 8⟩, ⟨.star, 9, 10⟩, ⟨.number "3", 11, 12⟩, ⟨.minus, 13, 14⟩, ⟨.star, 15, 16⟩,
    ⟨.rparen, 17, 18⟩]

/-- A product is read up to a sign, whatever is wrong behind it. -/
theorem parseChain_longest_overrun : ∃ t : Tree (.chain .term),
    parseChain 0 .term overrun = .ok (t, overrun.drop 8) ∧ Derives (overrun.take 8) t ∧
      ∀ ys, ys <+: overrun → Derivable .term ys → ys.length ≤ 8 := by
  have read : ∃ t : Tree (.chain .term),
      parseChain 0 .term overrun = .ok (t, overrun.drop 8) := ⟨_, rfl⟩
  obtain ⟨t, read⟩ := read
  obtain ⟨front, split, -, derives, longest, -⟩ := parseChain_longest read
  obtain rfl : front = overrun.take 8 := List.append_cancel_right split.symm
  exact ⟨t, read, derives, longest⟩

end Calculator
