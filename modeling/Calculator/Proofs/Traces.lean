import Calculator.Proofs.Columns
import Calculator.Proofs.Nesting

/-!
# Faults — the trace

A fault that is met in reading names the rules that are open there, innermost first.  Around a
primary these are always the same four up to an expression, which is the whole line or stands in a
group; and a group is a primary again.  So the trace is a repetition of five rules, and the
primaries in it are those of the groups that are open, in front of them the one that is missing, if
one is.

* `Pending.rules_eq`: the open rules, read off the number of open groups.
* `Pending.primaries_frames`: the open primaries start where the open groups do.
* `Reading.Reads.descending`: no rule starts behind a rule that it is open in.
* `Reading.traces_of_step`, `Reading.traces_of_finish`: the trace of a fault in reading.
* `parse_trace`: **a trace names the open groups**, in a fixed order of rules and columns; faults
  that are not met in reading have none.
-/

namespace Calculator

/-! ### The rules of a trace -/

/-- The rules from one outwards, up to the expression that it may start. -/
def Rule.outward : Rule → List Rule
  | .chain .expr => [.chain .expr]
  | .chain .term => [.chain .term, .chain .expr]
  | .chain .factor => [.chain .factor, .chain .term, .chain .expr]
  | .base => [.base, .chain .factor, .chain .term, .chain .expr]
  | .primary => [.primary, .base, .chain .factor, .chain .term, .chain .expr]

theorem Level.outward_operand (l : Level) :
    l.operand.outward = l.operand :: (Rule.chain l).outward := by
  cases l <;> rfl

/-- The columns of the primaries in a trace. -/
def primaries (trace : List Frame) : List Nat :=
  (trace.filter (·.rule = "primary")).map Frame.column

theorem primaries_cons (column : Nat) (trace : List Frame) :
    primaries (⟨Rule.primary.name, column⟩ :: trace) = column :: primaries trace :=
  rfl

theorem primaries_cons_of_ne {r : Rule} (h : r ≠ .primary) (column : Nat) (trace : List Frame) :
    primaries (⟨r.name, column⟩ :: trace) = primaries trace := by
  cases r with
  | chain l => cases l <;> rfl
  | base => rfl
  | primary => contradiction

namespace Pending

variable {goal r : Rule}

theorem map_rule_frames (p : Pending goal r) : p.frames.map Frame.rule = p.rules.map Rule.name := by
  induction p with
  | done => rfl
  | first _ outer ih | right _ _ _ _ _ outer ih | plain _ outer ih | negated _ outer ih
  | group _ outer ih => exact congrArg (_ :: ·) ih

/-- The open rules around a missing one, by the number of open groups. -/
theorem rules_eq (p : Pending (.chain .expr) r) :
    r :: p.rules = r.outward ++ (List.replicate p.groups.length Rule.primary.outward).flatten := by
  induction p with
  | done => rfl
  | first _ outer ih | right _ _ _ _ _ outer ih =>
      rw [Level.outward_operand, List.cons_append]
      exact congrArg (_ :: ·) ih
  | plain _ outer ih | negated _ outer ih => exact congrArg (Rule.primary :: ·) ih
  | group _ outer ih =>
      -- an expression is missing, and what is around it is around the group
      rw [rules, ih, groups, List.length_cons, List.replicate_succ, List.flatten_cons]
      rfl

/-- The open primaries start where the open groups do. -/
theorem primaries_frames (p : Pending goal r) :
    primaries p.frames = p.groups.map Span.column := by
  have chain_ne (l : Level) : Rule.chain l ≠ .primary := nofun
  induction p with
  | done => rfl
  | first _ outer ih | right _ _ _ _ _ outer ih =>
      exact (primaries_cons_of_ne (chain_ne _) _ _).trans ih
  | plain _ outer ih | negated _ outer ih => exact ih
  | group opening outer ih => exact congrArg (opening.column :: ·) ih

end Pending

/-! ### The columns of a trace -/

/-- No column is greater than one in front of it, nor than the bound. -/
def Descending (bound : Nat) (columns : List Nat) : Prop := (bound :: columns).Pairwise (· ≥ ·)

namespace Descending

variable {bound bound' : Nat} {columns columns' : List Nat}

theorem nil (bound : Nat) : Descending bound [] := List.pairwise_singleton _ _

/-- A rule may start at the bound. -/
theorem cons (h : Descending bound columns) : Descending bound (bound :: columns) := by
  refine List.pairwise_cons.mpr ⟨fun c mem => ?_, h⟩
  rcases List.mem_cons.mp mem with rfl | mem
  · exact Nat.le_refl _
  · exact (List.pairwise_cons.mp h).1 c mem

theorem of_suffix (h : Descending bound columns) (suffix : columns' <:+ columns) :
    Descending bound columns' :=
  h.sublist (suffix.sublist.cons_cons bound)

theorem mono (h : Descending bound columns) (le : bound ≤ bound') : Descending bound' columns := by
  obtain ⟨below, ordered⟩ := List.pairwise_cons.mp h
  exact List.pairwise_cons.mpr ⟨fun c mem => (below c mem).trans le, ordered⟩

end Descending

namespace Reading

variable {goal r : Rule} {s s' : Reading goal} {x : Lexeme} {xs : List Lexeme} {e : ParseError}

theorem descending_descend {column : Nat} {l : Level} {p : Pending goal (.chain l)}
    (h : Descending column p.columns) : Descending column (p.descend column l).columns := by
  cases l with
  | factor => exact h.cons
  | term => exact h.cons.cons
  | expr => exact h.cons.cons.cons

theorem descending_atPrimary {expected : List String} {p : Pending goal .primary}
    (step : atPrimary expected p x = .next s') (h : Descending x.column p.columns) :
    Descending x.column s'.columns := by
  obtain ⟨token, span⟩ := x
  cases token <;> cases step
  · exact h
  · exact h.cons

theorem descending_atBase {p : Pending goal .base} (step : atBase p x = .next s')
    (h : Descending x.column p.columns) : Descending x.column s'.columns := by
  obtain ⟨token, span⟩ := x
  cases token <;> cases step
  · exact h.cons
  · exact h.cons
  · exact h.cons.cons

/-- Rules that a step opens start at its lexeme, inside those that were open. -/
theorem descending_step (step : s.step x = .next s') (h : Descending x.column s.columns) :
    Descending x.column s'.columns := by
  cases s with
  | chain l p => exact descending_atBase step (descending_descend h)
  | base p => exact descending_atBase step h
  | primary p => exact descending_atPrimary step h
  | after t p =>
      rcases behind_eq_next step with ⟨l, q, suffix, -, rfl⟩ | ⟨t', q, suffix, -, rfl⟩
      · rw [columns_operand]
        exact h.of_suffix (suffix.map Frame.column)
      · exact h.of_suffix (suffix.map Frame.column)

/-- No rule starts behind a rule that it is open in, if lexemes are read in the order of their
columns. -/
theorem Reads.descending (h : s.Reads xs s') {bound : Nat} (nothing : s.columns = [])
    (ordered : (columnsOf xs ++ [bound]).Pairwise (· ≤ ·)) : Descending bound s'.columns := by
  induction h generalizing bound with
  | nil =>
      rw [nothing]
      exact .nil bound
  | @snoc xs x s₁ s' _ step ih =>
      rw [columnsOf_append] at ordered
      obtain ⟨front, -, le⟩ := List.pairwise_append.mp ordered
      have last : x.column ≤ bound := le _ (by simp [columnsOf]) _ List.mem_cons_self
      exact (descending_step step (ih front)).mono last

end Reading

/-! ### Faults in reading -/

/-- The trace of a fault that is met where the groups are open: the rules around a primary, once or
more often.  Where a group is not closed, the primaries are the open groups; where a primary is
missing, it stands in front of them, at the column of the fault. -/
structure ParseError.Traces (e : ParseError) (groups : List Span) : Prop where
  rules : ∃ k ≥ 1, e.trace.map Frame.rule
    = (List.replicate k ["primary", "base", "factor", "term", "expr"]).flatten
  unclosed : ∀ opened, e.cause.opened? = some opened →
    primaries e.trace = groups.map Span.column ∧ (primaries e.trace).head? = some opened
  missing : e.cause.opened? = none →
    primaries e.trace = e.column :: groups.map Span.column
  descending : Descending e.column (e.trace.map Frame.column)

namespace Reading

variable {s : Reading (.chain .expr)} {x : Lexeme} {e : ParseError} {last : Nat}

/-- The rules that are open in a primary, and the primary. -/
theorem exists_rules (p : Pending (.chain .expr) .primary) (column : Nat) :
    ∃ k ≥ 1, (⟨Rule.primary.name, column⟩ :: p.frames : List Frame).map Frame.rule
      = (List.replicate k ["primary", "base", "factor", "term", "expr"]).flatten := by
  refine ⟨p.groups.length + 1, Nat.le_add_left 1 _, ?_⟩
  calc (⟨Rule.primary.name, column⟩ :: p.frames : List Frame).map Frame.rule
      = (.primary :: p.rules).map Rule.name := congrArg (_ :: ·) p.map_rule_frames
    _ = ((List.replicate (p.groups.length + 1) Rule.primary.outward).flatten).map Rule.name := by
        rw [p.rules_eq, List.replicate_succ, List.flatten_cons]
    _ = _ := by
        rw [List.map_flatten, List.map_replicate]
        rfl

/-- The trace of a missing primary. -/
theorem traces_of_missing {cause : ParseError.Cause} (closed : cause.opened? = none) {column : Nat}
    {p : Pending (.chain .expr) .primary} (h : Descending column p.columns) :
    ParseError.Traces ⟨cause, column, ⟨Rule.primary.name, column⟩ :: p.frames⟩ p.groups where
  rules := exists_rules p column
  unclosed opened eq := nomatch closed.symm.trans eq
  missing _ := by rw [primaries_cons, p.primaries_frames]
  descending := h.cons

/-- The trace of a group that is not closed. -/
theorem Unclosed.traces {r : Rule} {p : Pending (.chain .expr) r} {found : Option String}
    {column : Nat} (unclosed : Unclosed p found column e) (h : Descending column p.columns) :
    e.Traces p.groups := by
  obtain ⟨opening, outer, suffix, innermost, rfl⟩ := unclosed
  have starts := (Pending.group opening outer).primaries_frames
  refine ⟨exists_rules outer opening.column, ?_, nofun, h.of_suffix (suffix.map Frame.column)⟩
  rintro opened ⟨⟩
  rw [← innermost]
  exact ⟨starts, congrArg List.head? starts⟩

theorem traces_of_atPrimary {expected : List String} {p : Pending (.chain .expr) .primary}
    (fail : atPrimary expected p x = .fail e) (h : Descending x.column p.columns) :
    e.Traces p.groups := by
  obtain ⟨token, span⟩ := x
  cases token <;> cases fail <;> exact traces_of_missing rfl h

theorem traces_of_atBase {p : Pending (.chain .expr) .base} (fail : atBase p x = .fail e)
    (h : Descending x.column p.columns) : e.Traces p.groups := by
  obtain ⟨token, span⟩ := x
  cases token <;> cases fail <;>
    exact traces_of_missing (p := .plain _ p) rfl h.cons

/-- The trace of a lexeme that fits nowhere. -/
theorem traces_of_step (fail : s.step x = .fail e) (h : Descending x.column s.columns) :
    e.Traces s.groups := by
  cases s with
  | chain l p =>
      have traces := traces_of_atBase fail (descending_descend h)
      rwa [groups_descend] at traces
  | base p => exact traces_of_atBase fail h
  | primary p => exact traces_of_atPrimary fail h
  | after t p => exact (behind_eq_fail fail).traces h

/-- The trace of a line that ends too early. -/
theorem traces_of_finish (fail : s.finish last = .error e) (h : Descending last s.columns) :
    e.Traces s.groups := by
  cases s with
  | chain l p =>
      cases fail
      have base : Descending last (p.descend last l).columns := descending_descend h
      have traces : ParseError.Traces (missing baseStart _ last) _ :=
        traces_of_missing (p := .plain last (p.descend last l)) rfl base.cons
      rwa [Pending.groups, groups_descend] at traces
  | base p =>
      cases fail
      exact traces_of_missing (p := .plain last p) rfl h.cons
  | primary p =>
      cases fail
      exact traces_of_missing rfl h
  | after t p => exact (close_eq_error fail).traces h

/-- A fault in reading is met at a lexeme, behind those that are read, or at the end of the line. -/
theorem exists_fault_of_run {goal : Rule} {s : Reading goal} {xs : List Lexeme}
    (h : run last s xs = .error e) :
    (∃ before x after s', xs = before ++ x :: after ∧ s.Reads before s' ∧ s'.step x = .fail e) ∨
      ∃ s', s.Reads xs s' ∧ s'.finish last = .error e := by
  rcases s.exists_reads xs with ⟨s', reads⟩ | ⟨before, x, after, s', rfl, reads, stuck⟩
  · have read := reads.run_append last []
    rw [List.append_nil, h, run] at read
    cases finished : s'.finish last with
    | error e' =>
        rw [finished] at read
        cases read
        exact .inr ⟨s', reads, finished⟩
    | ok t =>
        rw [finished] at read
        cases read
  · rw [reads.run_append, run] at h
    cases step : s'.step x with
    | next s₁ => exact absurd step (stuck s₁)
    | stop t =>
        rw [step] at h
        cases h
    | fail e' =>
        rw [step] at h
        cases h
        exact .inl ⟨before, x, after, s', rfl, reads, step⟩

end Reading

/-! ### Lines -/

/-- Whether a parse error is met in reading: the others are met before it or behind it. -/
def ParseError.Cause.inReading : Cause → Bool
  | .unexpectedToken _ _ => true
  | .unexpectedEnd _ => true
  | .unclosedGroup _ _ => true
  | _ => false

/-- The fault lies at the lexeme behind `before`, or at the end of the line if no lexeme is left. -/
def ParseError.LiesBehind (e : ParseError) (before xs : List Lexeme) (last : Nat) : Prop :=
  (∃ x after, xs = before ++ x :: after ∧ e.cause.place = .token ∧ e.column = x.column) ∨
    xs = before ∧ e.cause.place = .lineEnd ∧ e.column = last

/-- Lexemes start in the order in which they stand, and none of them behind the line. -/
theorem Tiled.columns_ordered {line : List Char} {start stop : Nat} {xs : List Lexeme}
    (h : Tiled line start stop xs) : (columnsOf xs ++ [stop + 1]).Pairwise (· ≤ ·) := by
  refine List.pairwise_append.mpr ⟨?_, List.pairwise_singleton _ _, ?_⟩
  · rw [columnsOf, List.pairwise_map]
    refine h.ordered.imp_of_mem fun mem _ behind => ?_
    exact Nat.succ_le_succ ((h.bounds _ mem).2.1.le.trans behind)
  · intro c column last eq
    obtain ⟨x, mem, rfl⟩ := List.mem_map.mp column
    obtain rfl := List.mem_singleton.mp eq
    obtain ⟨-, some, le⟩ := h.bounds x mem
    exact Nat.succ_le_succ (some.le.trans le)

/-- The parse error of a line that is scanned has no trace, or is met in reading. -/
theorem exists_run_of_parseLexemes {xs : List Lexeme} {length : Nat} {e : ParseError}
    (h : parseLexemes xs length = .error e) : (e.cause.inReading = false ∧ e.trace = []) ∨
      Reading.run (length + 1) (.chain .expr .done) xs = .error e := by
  rw [parseLexemes] at h
  split at h
  · cases h
    exact .inl ⟨rfl, rfl⟩
  · split at h
    · cases h
      exact .inl ⟨rfl, rfl⟩
    · split at h
      · rename_i failed
        cases h
        exact .inr failed
      · cases h
        exact .inl ⟨rfl, rfl⟩
      · split at h <;> cases h
        exact .inl ⟨rfl, rfl⟩

section

variable {before after xs : List Lexeme} {x : Lexeme} {s : Reading (.chain .expr)} {e : ParseError}
  {last : Nat} (reads : (Reading.chain .expr .done).Reads before s)
include reads

/-- A fault that is met at a lexeme. -/
theorem traced_of_step (fail : s.step x = .fail e)
    (ordered : (columnsOf (before ++ x :: after) ++ [last]).Pairwise (· ≤ ·)) :
    e.cause.inReading = true ∧ e.LiesBehind before (before ++ x :: after) last ∧
      e.Traces (openGroups before) := by
  have front : (columnsOf before ++ [x.column]).Pairwise (· ≤ ·) := by
    refine ordered.sublist ?_
    rw [columnsOf_append, List.append_assoc]
    exact (List.Sublist.refl _).append (List.singleton_sublist.mpr List.mem_cons_self)
  have traces := Reading.traces_of_step fail (reads.descending rfl front)
  rw [reads.groups_eq] at traces
  obtain ⟨column, ⟨expected, -, cause⟩ | ⟨opened, cause⟩⟩ := Reading.step_eq_fail fail
  · exact ⟨by rw [cause]; rfl, .inl ⟨x, after, rfl, by rw [cause]; rfl, column⟩, traces⟩
  · exact ⟨by rw [cause]; rfl, .inl ⟨x, after, rfl, by rw [cause]; rfl, column⟩, traces⟩

/-- A fault that is met at the end of the line. -/
theorem traced_of_finish (fail : s.finish last = .error e)
    (ordered : (columnsOf before ++ [last]).Pairwise (· ≤ ·)) :
    e.cause.inReading = true ∧ e.LiesBehind before before last ∧ e.Traces (openGroups before) := by
  have traces := Reading.traces_of_finish fail (reads.descending rfl ordered)
  rw [reads.groups_eq] at traces
  have within := Reading.finish_error_within fail
  have column : e.cause.place = .lineEnd → e.column = last := fun place => by
    have := within.place
    rwa [Failure.place, place] at this
  rcases Reading.finish_eq_error fail with ⟨expected, -, cause⟩ | ⟨opened, cause⟩
  · have place : e.cause.place = .lineEnd := by rw [cause]; rfl
    exact ⟨by rw [cause]; rfl, .inr ⟨rfl, place, column place⟩, traces⟩
  · have place : e.cause.place = .lineEnd := by rw [cause]; rfl
    exact ⟨by rw [cause]; rfl, .inr ⟨rfl, place, column place⟩, traces⟩

end

/-- **A trace names the open groups.**  A fault that is met in reading a line lies at a lexeme, or
at the end of the line; its trace is a repetition of the five rules, innermost first, in which the
primaries are the groups that are not closed in front of the fault, and first the primary that is
missing, if one is.  No rule in it starts behind the one in front of it, nor behind the fault.  All
other faults have no trace. -/
theorem parse_trace {line : String} {e : ParseError} (h : parse line = .error e) :
    (e.cause.inReading = false → e.trace = []) ∧
      (e.cause.inReading = true → ∃ xs before, scan line = .ok xs ∧
        e.LiesBehind before xs (line.utf8ByteSize + 1) ∧ e.Traces (openGroups before)) := by
  rw [parse] at h
  split at h
  · rename_i stuck
    cases h
    obtain ⟨before, c, after, xs, -, rfl, -⟩ := exists_stuck_of_scan stuck
    refine ⟨fun _ => rfl, fun inside => ?_⟩
    cases inside
  · rename_i xs scanned
    have ordered := (tiled_of_scan scanned).columns_ordered
    rcases exists_run_of_parseLexemes h with ⟨outside, nothing⟩ | failed
    · refine ⟨fun _ => nothing, fun inside => ?_⟩
      cases outside.symm.trans inside
    · suffices traced : ∃ before, e.cause.inReading = true ∧
          e.LiesBehind before xs (line.utf8ByteSize + 1) ∧ e.Traces (openGroups before) by
        obtain ⟨before, inside, lies, traces⟩ := traced
        refine ⟨fun outside => ?_, fun _ => ⟨xs, before, scanned, lies, traces⟩⟩
        cases outside.symm.trans inside
      rcases Reading.exists_fault_of_run failed with
        ⟨before, x, after, s, rfl, reads, fail⟩ | ⟨s, reads, fail⟩
      · exact ⟨before, traced_of_step reads fail ordered⟩
      · exact ⟨xs, traced_of_finish reads fail ordered⟩

/-- The fault of `(2 * (3 + )`, where an operand is missing in two groups. -/
def missingOperand : ParseError :=
  ⟨.unexpectedToken ")" ["a number", "'('", "'-'"], 11,
    [⟨"primary", 11⟩, ⟨"base", 11⟩, ⟨"factor", 11⟩, ⟨"term", 11⟩, ⟨"expr", 7⟩,
      ⟨"primary", 6⟩, ⟨"base", 6⟩, ⟨"factor", 6⟩, ⟨"term", 2⟩, ⟨"expr", 2⟩,
      ⟨"primary", 1⟩, ⟨"base", 1⟩, ⟨"factor", 1⟩, ⟨"term", 1⟩, ⟨"expr", 1⟩]⟩

theorem parse_trace_missingOperand : parse "(2 * (3 + )" = .error missingOperand ∧
    ∃ xs before, scan "(2 * (3 + )" = .ok xs ∧ missingOperand.LiesBehind before xs 12 ∧
      missingOperand.Traces (openGroups before) := by
  have fault : parse "(2 * (3 + )" = .error missingOperand := rfl
  exact ⟨fault, (parse_trace fault).2 rfl⟩

end Calculator
