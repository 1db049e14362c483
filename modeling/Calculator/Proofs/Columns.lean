import Calculator.Proofs.Lines
import Calculator.Proofs.Nodes
import Calculator.Proofs.Prefixes

/-!
# Faults — the columns that they name

A fault names the column it lies at, and a parse error also those at which a group and the open
rules started.  All of them are columns of lexemes, or the one behind the line.

* `Reading.columns_step`: a step opens rules at its lexeme only.
* `Reading.step_fail_within`, `Reading.finish_error_within`, `Reading.run_error_within`: the columns
  of a fault in reading.
* `evaluateLexemes_error_within`: **a fault of lexemes lies at one of them**, or behind the line.
-/

namespace Calculator

/-! ### Places -/

/-- What a fault lies at. -/
inductive Failure.Place where
  /-- A character that starts no token. -/
  | character
  /-- A token. -/
  | token
  /-- The end of the line. -/
  | lineEnd
deriving DecidableEq

/-- What a parse error lies at. -/
def ParseError.Cause.place : ParseError.Cause → Failure.Place
  | .unexpectedCharacter _ => .character
  | .unexpectedEnd _ => .lineEnd
  | .unclosedGroup none _ => .lineEnd
  | .empty => .lineEnd
  | _ => .token

/-- The column of the open group that a parse error names. -/
def ParseError.Cause.opened? : ParseError.Cause → Option Nat
  | .unclosedGroup _ openColumn => some openColumn
  | _ => none

namespace Failure

/-- What the fault lies at. -/
def place : Failure → Place
  | .parsing e => e.cause.place
  | .evaluation _ => .token

/-- All columns that the fault names. -/
def columns : Failure → List Nat
  | .parsing e => e.column :: (e.cause.opened?.toList ++ e.trace.map Frame.column)
  | .evaluation e => [e.column]

/-- The fault lies at a token that starts at one of the columns, or at the end of a line, at `last`;
and so do all columns that it names. -/
structure Within (failure : Failure) (columns : List Nat) (last : Nat) : Prop where
  place : match failure.place with
    | .character => False
    | .token => failure.column ∈ columns
    | .lineEnd => failure.column = last
  sub : failure.columns ⊆ last :: columns

theorem Within.mono {failure : Failure} {columns columns' : List Nat} {last : Nat}
    (h : failure.Within columns last) (sub : columns ⊆ columns') :
    failure.Within columns' last := by
  obtain ⟨place, named⟩ := h
  refine ⟨?_, fun c mem => List.cons_subset_cons _ sub (named mem)⟩
  split
  · rename_i character
    rwa [character] at place
  · rename_i token
    rw [token] at place
    exact sub place
  · rename_i lineEnd
    rwa [lineEnd] at place

end Failure

/-! ### Reading -/

section

variable {goal r : Rule}

/-- The columns at which the open rules started. -/
def Pending.columns (p : Pending goal r) : List Nat := p.frames.map Frame.column

namespace Reading

/-- The columns at which the open rules started. -/
def columns : Reading goal → List Nat
  | .chain _ p => p.columns
  | .base p => p.columns
  | .primary p => p.columns
  | .after _ p => p.columns

variable {s s' : Reading goal} {x : Lexeme} {e : ParseError} {last : Nat}

theorem columns_operand {l : Level} (p : Pending goal l.operand) :
    (operand l p).columns = p.columns := by
  cases l <;> rfl

theorem columns_descend (column : Nat) (l : Level) (p : Pending goal (.chain l)) :
    (p.descend column l).columns ⊆ column :: p.columns := by
  cases l <;> simp [Pending.descend, Pending.columns, Pending.frames]

theorem columns_atPrimary {expected : List String} {p : Pending goal .primary}
    (h : atPrimary expected p x = .next s') : s'.columns ⊆ x.column :: p.columns := by
  obtain ⟨token, span⟩ := x
  cases token <;> cases h
  · exact List.subset_cons_self _ _
  · exact List.Subset.refl _

theorem columns_atBase {p : Pending goal .base} (h : atBase p x = .next s') :
    s'.columns ⊆ x.column :: p.columns := by
  obtain ⟨token, span⟩ := x
  cases token <;> cases h <;> simp [columns, Pending.columns, Pending.frames, Lexeme.column]

/-- Behind a tree, no rule is opened. -/
theorem columns_behind {t : Tree r} {p : Pending goal r} (h : behind x t p = .next s') :
    s'.columns ⊆ p.columns := by
  rcases behind_eq_next h with ⟨l, q, suffix, -, rfl⟩ | ⟨t', q, suffix, -, rfl⟩
  · rw [columns_operand]
    exact (suffix.map Frame.column).subset
  · exact (suffix.map Frame.column).subset

/-- A step opens rules at its lexeme only. -/
theorem columns_step (h : s.step x = .next s') : s'.columns ⊆ x.column :: s.columns := by
  cases s with
  | chain l p =>
      -- an operand opens all rules down to its base at its first lexeme
      refine fun c mem => ?_
      rcases List.mem_cons.mp (columns_atBase h mem) with rfl | mem
      · exact List.mem_cons_self
      · exact columns_descend _ _ _ mem
  | base p => exact columns_atBase h
  | primary p => exact columns_atPrimary h
  | after t p => exact fun c mem => List.mem_cons_of_mem _ (columns_behind h mem)

/-! ### Faults in reading -/

theorem atPrimary_fail_within {expected : List String} {p : Pending goal .primary}
    (h : atPrimary expected p x = .fail e) :
    (Failure.parsing e).Within (x.column :: p.columns) last := by
  obtain ⟨token, span⟩ := x
  cases token <;> cases h <;>
    exact ⟨List.mem_cons_self, by simp [Failure.columns, ParseError.Cause.opened?, Pending.columns]⟩

theorem atBase_fail_within {p : Pending goal .base} (h : atBase p x = .fail e) :
    (Failure.parsing e).Within (x.column :: p.columns) last := by
  have primary : atPrimary baseStart (.plain x.column p) x = .fail e := by
    obtain ⟨token, span⟩ := x
    cases token <;> cases h <;> rfl
  exact (atPrimary_fail_within primary).mono
    (List.cons_subset.mpr ⟨List.mem_cons_self, List.Subset.refl _⟩)

/-- The fault of a group that is open names its column and those of the rules around it. -/
theorem Unclosed.columns_sub {p : Pending goal r} {found : Option String} {column : Nat}
    (h : Unclosed p found column e) :
    (Failure.parsing e).columns ⊆ column :: p.columns := by
  obtain ⟨opening, outer, suffix, -, rfl⟩ := h
  have sub : (Pending.group opening outer).columns ⊆ p.columns := (suffix.map Frame.column).subset
  exact List.cons_subset_cons _ (List.cons_subset.mpr ⟨sub List.mem_cons_self, sub⟩)

/-- A lexeme that fits nowhere is named, and the rules that are open. -/
theorem step_fail_within (h : s.step x = .fail e) :
    (Failure.parsing e).Within (x.column :: s.columns) last := by
  cases s with
  | chain l p =>
      refine (atBase_fail_within h).mono ?_
      exact List.cons_subset.mpr ⟨List.mem_cons_self, columns_descend _ _ _⟩
  | base p => exact atBase_fail_within h
  | primary p => exact atPrimary_fail_within h
  | after t p =>
      have unclosed := behind_eq_fail h
      have sub := unclosed.columns_sub
      obtain ⟨opening, outer, -, -, rfl⟩ := unclosed
      exact ⟨List.mem_cons_self, fun c mem => List.mem_cons_of_mem _ (sub mem)⟩

theorem missing_within (expected : List String) (p : Pending goal .primary) (last : Nat) :
    (Failure.parsing (missing expected p last)).Within p.columns last := by
  refine ⟨rfl, ?_⟩
  simp [Failure.columns, missing, ParseError.Cause.opened?, Pending.columns]

/-- At the end of a line, the end is named, and the rules that are open. -/
theorem finish_error_within (h : s.finish last = .error e) :
    (Failure.parsing e).Within s.columns last := by
  cases s with
  | chain l p =>
      cases h
      obtain ⟨place, sub⟩ := missing_within baseStart (.plain last (p.descend last l)) last
      refine ⟨place, fun c mem => ?_⟩
      rcases List.mem_cons.mp (sub mem) with rfl | mem
      · exact List.mem_cons_self
      · rcases List.mem_cons.mp mem with rfl | mem
        · exact List.mem_cons_self
        · exact columns_descend _ _ _ mem
  | base p =>
      cases h
      obtain ⟨place, sub⟩ := missing_within baseStart (.plain last p) last
      exact ⟨place, fun c mem => by
        simpa [columns, Pending.columns, Pending.frames] using sub mem⟩
  | primary p =>
      cases h
      exact missing_within primaryStart p last
  | after t p =>
      have unclosed := close_eq_error h
      have sub := unclosed.columns_sub
      obtain ⟨opening, outer, -, -, rfl⟩ := unclosed
      exact ⟨rfl, sub⟩

/-- Reading names the lexemes that it reads, the rules that are open before, and the end. -/
theorem run_error_within {xs : List Lexeme} (h : s.run last xs = .error e) :
    (Failure.parsing e).Within (s.columns ++ columnsOf xs) last := by
  induction xs generalizing s with
  | nil =>
      rw [run] at h
      cases finished : s.finish last with
      | error e' =>
          rw [finished] at h
          cases h
          exact (finish_error_within finished).mono (List.subset_append_left _ _)
      | ok t =>
          rw [finished] at h
          cases h
  | cons x xs ih =>
      rw [run] at h
      split at h
      · -- what is open behind the lexeme was open before, or started at it
        rename_i s' step
        refine (ih h).mono fun c mem => ?_
        rcases List.mem_append.mp mem with mem | mem
        · rcases List.mem_cons.mp (columns_step step mem) with rfl | mem
          · exact List.mem_append_right _ List.mem_cons_self
          · exact List.mem_append_left _ mem
        · exact List.mem_append_right _ (List.mem_cons_of_mem _ mem)
      · cases h
      · rename_i e' step
        cases h
        refine (step_fail_within step).mono (List.cons_subset.mpr ⟨?_, ?_⟩)
        · exact List.mem_append_right _ List.mem_cons_self
        · exact List.subset_append_left _ _

end Reading

end

/-! ### Lines of lexemes -/

/-- A group that is too deep starts at a lexeme. -/
theorem deepGroup?_mem {max depth column : Nat} {xs : List Lexeme}
    (h : deepGroup? max depth xs = some column) : column ∈ columnsOf xs := by
  induction xs generalizing depth with
  | nil => cases h
  | cons x xs ih =>
      rw [deepGroup?] at h
      split at h
      · split at h
        · cases h
          exact List.mem_cons_self
        · exact List.mem_cons_of_mem _ (ih h)
      · exact List.mem_cons_of_mem _ (ih h)
      · exact List.mem_cons_of_mem _ (ih h)

theorem parseLexemes_error_within {xs : List Lexeme} {length : Nat} {e : ParseError}
    (h : parseLexemes xs length = .error e) :
    (Failure.parsing e).Within (columnsOf xs) (length + 1) := by
  -- a fault at a token names no other columns
  have single {cause : ParseError.Cause} {column : Nat} (mem : column ∈ columnsOf xs)
      (place : cause.place = .token) (opened : cause.opened? = none) :
      (Failure.parsing ⟨cause, column, []⟩).Within (columnsOf xs) (length + 1) := by
    refine ⟨?_, ?_⟩
    · rw [Failure.place, place]
      exact mem
    · simp [Failure.columns, opened, mem]
  rw [parseLexemes] at h
  split at h
  · cases h
    exact ⟨rfl, List.cons_subset_cons _ (List.nil_subset _)⟩
  · split at h
    · rename_i deep
      cases h
      exact single (deepGroup?_mem deep) rfl rfl
    · split at h
      · rename_i failed
        cases h
        exact Reading.run_error_within failed
      · rename_i t x rest read
        cases h
        have mem : x ∈ xs := by
          rw [← parseChain_lexemes read]
          exact List.mem_append_right _ List.mem_cons_self
        exact single (List.mem_map_of_mem mem) rfl rfl
      · rename_i t read
        split at h
        · cases h
          have lexemes := parseChain_lexemes read
          rw [List.append_nil] at lexemes
          exact single (lexemes ▸ t.column_of_span) rfl rfl
        · cases h

/-- What is wrong with the lexemes of a line lies at one of them, or at the end of the line. -/
theorem evaluateLexemes_error_within {limits : Limits} {xs : List Lexeme} {length : Nat}
    {failure : Failure} (h : evaluateLexemes limits xs length = .error failure) :
    failure.Within (columnsOf xs) (length + 1) := by
  rw [evaluateLexemes] at h
  split at h
  · rename_i failed
    cases h
    exact parseLexemes_error_within failed
  · rename_i t parsed
    cases failed : t.toExpr.evaluate limits with
    | ok d =>
        rw [failed] at h
        cases h
    | error e =>
        rw [failed] at h
        cases h
        obtain ⟨node, mem, column⟩ := Expr.column_of_evaluate failed
        have mem : e.column ∈ columnsOf xs := by
          rw [column, ← parseLexemes_lexemes parsed]
          exact t.column_of_mem_nodes node mem
        exact ⟨mem, List.cons_subset.mpr ⟨List.mem_cons_of_mem _ mem, List.nil_subset _⟩⟩

end Calculator
