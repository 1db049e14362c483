import Calculator.Proofs.Nodes

/-!
# Evaluation — on a stack

Evaluating an expression is running its parts in postfix order on a stack of values: a literal is
pushed, a negation takes the value on top, and an operation the two on top.  A run ends at the first
part that fails, and so the fault of an expression is that of the first of its parts, operands
before what is done with them, that has no value.

* `Expr.map_root_postorder`: the parts in postfix order have the nodes of the expression.
* `Expr.runNodes_postorder`: **running the parts of an expression pushes its value**.
* `Expr.exists_failsAt`, `Expr.FailsAt.evaluate_eq`: an expression fails if and only if one of its
  parts does, with values in front of it.
* `Expr.evaluate_postfix`: both, and where the fault lies.
-/

namespace Calculator
namespace Expr

/-- The parts of an expression in postfix order: operands come before what is done with them, and
left operands before right ones. -/
def postorder : Expr → List Expr
  | num text span => [num text span]
  | neg operand span => operand.postorder ++ [neg operand span]
  | binary left op right span =>
      left.postorder ++ (right.postorder ++ [binary left op right span])

/-- The last node of an expression. -/
def root : Expr → Node
  | num text span => .num text span
  | neg _ span => .neg span
  | binary _ op _ span => .binary op span

/-- The parts in postfix order have the nodes in postfix order. -/
theorem map_root_postorder (e : Expr) : e.postorder.map root = e.nodes := by
  induction e with
  | num text span => rfl
  | neg operand span ih =>
      rw [postorder, List.map_append, ih, nodes_neg]
      rfl
  | binary left op right span ihl ihr =>
      rw [postorder, List.map_append, List.map_append, ihl, ihr, nodes_binary]
      rfl

/-! ### Runs -/

/-- What ends a run on a stack. -/
inductive StackFault where
  /-- A part finds fewer values on the stack than it has operands. -/
  | underflow
  /-- A part fails on the values that it finds. -/
  | evaluation (fault : EvalError)
deriving DecidableEq, Repr

/-- Pushes a result; a fault ends the run. -/
def push (stack : List Decimal) : Except EvalError Decimal → Except StackFault (List Decimal)
  | .ok d => .ok (d :: stack)
  | .error fault => .error (.evaluation fault)

variable (limits : Limits)

/-- Runs the last node of an expression.  The operands are not looked at: their values are taken
from the stack, and only the right operand of an operation is named by its fault. -/
def runNode : Expr → List Decimal → Except StackFault (List Decimal)
  | num text span, stack => push stack (evaluateLiteral text span)
  | neg _ _, a :: stack => .ok (-a :: stack)
  | binary _ op right span, b :: a :: stack => push stack (op.apply limits a b right span)
  | _, _ => .error .underflow

/-- Runs the last nodes of some expressions, one after the other. -/
def runNodes (parts : List Expr) (stack : List Decimal) : Except StackFault (List Decimal) :=
  parts.foldlM (fun stack part => part.runNode limits stack) stack

variable {limits : Limits} {stack : List Decimal} {e : Expr} {fault : EvalError}

theorem runNodes_append (parts parts' : List Expr) :
    runNodes limits (parts ++ parts') stack
      = runNodes limits parts stack >>= runNodes limits parts' :=
  List.foldlM_append

theorem runNodes_cons (part : Expr) (parts : List Expr) :
    runNodes limits (part :: parts) stack = part.runNode limits stack >>= runNodes limits parts :=
  List.foldlM_cons

theorem runNodes_singleton (part : Expr) (stack : List Decimal) :
    runNodes limits [part] stack = part.runNode limits stack := by
  rw [runNodes_cons]
  exact bind_pure _

/-- **Running the parts of an expression pushes its value**, or ends with its fault. -/
theorem runNodes_postorder (e : Expr) (stack : List Decimal) :
    runNodes limits e.postorder stack = push stack (e.evaluate limits) := by
  induction e generalizing stack with
  | num text span => exact runNodes_singleton _ _
  | neg operand span ih =>
      rw [postorder, runNodes_append, ih, evaluate]
      rcases operand.evaluate limits with fault | a
      · rfl
      · change runNodes limits [neg operand span] (a :: stack) = _
        rw [runNodes_singleton]
        rfl
  | binary left op right span ihl ihr =>
      rw [postorder, runNodes_append, ihl, evaluate]
      rcases left.evaluate limits with fault | a
      · rfl
      -- the value of the left operand lies under what the right one pushes
      change runNodes limits (right.postorder ++ _) (a :: stack) = _
      rw [runNodes_append, ihr]
      rcases right.evaluate limits with fault | b
      · rfl
      · change runNodes limits [binary left op right span] (b :: a :: stack) = _
        rw [runNodes_singleton]
        rfl

/-! ### The first fault -/

/-- What a node fails with if its operands have values. -/
inductive Faults (limits : Limits) : Expr → EvalError → Prop
  | literal {text : String} {span : Span} (malformed : ∀ d, Decimal.ofText text ≠ .ok d) :
      Faults limits (num text span) ⟨.invalidLiteral text, span.column⟩
  | operation {left right : Expr} {op : Operator} {span : Span} {a b : Decimal} {fault : EvalError}
      (left_eq : left.evaluate limits = .ok a) (right_eq : right.evaluate limits = .ok b)
      (faults : op.Faults limits a b right span fault) :
      Faults limits (binary left op right span) fault

/-- Where a node is pointed at that fails for the cause: a zero divisor and an exponent that is not
admitted lie where the right operand starts, and everything else where the node does. -/
def faultColumn : Expr → EvalError.Cause → Nat
  | binary _ .div right _, .divisionByZero _ => right.column
  | binary _ _ right _, .fractionalExponent _ => right.column
  | binary _ _ right _, .exponentTooLarge _ _ => right.column
  | node, _ => node.column

theorem Faults.column_eq {node : Expr} (h : node.Faults limits fault) :
    fault.column = node.faultColumn fault.cause := by
  cases h with
  | literal => rfl
  | @operation left right op span a b fault left_eq right_eq faults =>
      cases faults with
      | resultTooLarge => cases op <;> rfl
      | scaleOverflow => cases op <;> rfl
      | zeroDivisor => rfl
      | zeroBase => rfl
      | fractionalExponent => rfl
      | exponentTooLarge => rfl

/-- `node` is the first part of the expression that has no value: a run comes as far as to it, and
ends there with `fault`. -/
structure FailsAt (limits : Limits) (e : Expr) (before : List Expr) (node : Expr)
    (after : List Expr) (fault : EvalError) : Prop where
  postorder_eq : e.postorder = before ++ node :: after
  /-- Everything in front of the node has a value. -/
  evaluates : ∀ part ∈ before, ∃ d, part.evaluate limits = .ok d
  fails : node.evaluate limits = .error fault
  /-- Whatever is on the stack, the node fails on what is pushed in front of it. -/
  stops : ∀ stack, ∃ values, runNodes limits before stack = .ok values ∧
    node.runNode limits values = .error (.evaluation fault)
  faults : node.Faults limits fault

namespace FailsAt

variable {part node : Expr} {before after : List Expr}

/-- If a part fails at a node and everything in front of the part has values, then the expression
fails at that node. -/
theorem extend (h : FailsAt limits part before node after fault) (front rest : List Expr)
    (postorder_eq : e.postorder = front ++ (part.postorder ++ rest))
    (evaluates : ∀ part ∈ front, ∃ d, part.evaluate limits = .ok d)
    (runs : ∀ stack, ∃ values, runNodes limits front stack = .ok values) :
    FailsAt limits e (front ++ before) node (after ++ rest) fault where
  postorder_eq := by
    rw [postorder_eq, h.postorder_eq, List.append_assoc, List.append_assoc, List.cons_append]
  evaluates p mem := (List.mem_append.mp mem).elim (evaluates p) (h.evaluates p)
  fails := h.fails
  stops stack := by
    obtain ⟨values, ran⟩ := runs stack
    rw [runNodes_append, ran]
    exact h.stops values
  faults := h.faults

/-- An expression that fails at a node has the fault of the node. -/
theorem evaluate_eq (h : FailsAt limits e before node after fault) :
    e.evaluate limits = .error fault := by
  obtain ⟨values, ran, stopped⟩ := h.stops []
  have run : push [] (e.evaluate limits) = .error (.evaluation fault) := by
    rw [← runNodes_postorder, h.postorder_eq, runNodes_append, ran]
    change runNodes limits (node :: after) values = _
    rw [runNodes_cons, stopped]
    rfl
  rcases value : e.evaluate limits with fault' | d
  · rw [value] at run
    cases run
    rfl
  · rw [value] at run
    cases run

/-- A zero divisor is named as it is written, and pointed at where it starts. -/
theorem eq_of_zero {left right : Expr} {span : Span} {b : Decimal}
    (h : FailsAt limits e before (binary left .div right span) after fault)
    (right_eq : right.evaluate limits = .ok b) (zero : b.value = 0) :
    fault = ⟨.divisionByZero right.text, right.column⟩ := by
  have fails := h.fails
  cases h.faults with
  | operation left_eq _ _ =>
      rw [evaluate_binary, left_eq, right_eq] at fails
      change (Decimal.div _ b _).mapError _ = _ at fails
      rw [Decimal.div, if_pos ((Decimal.value_eq_zero_iff b).mp zero)] at fails
      exact (Except.error.inj fails).symm

end FailsAt

/-- If an expression has a value, so have all of its parts. -/
theorem exists_value_of_mem_postorder {d : Decimal} (h : e.evaluate limits = .ok d) :
    ∀ part ∈ e.postorder, ∃ d, part.evaluate limits = .ok d := by
  induction e generalizing d with
  | num text span =>
      intro part mem
      obtain rfl := List.mem_singleton.mp mem
      exact ⟨d, h⟩
  | neg operand span ih =>
      obtain ⟨a, ha, -⟩ := evaluate_neg_eq_ok_iff.mp h
      intro part mem
      rcases List.mem_append.mp mem with mem | mem
      · exact ih ha part mem
      · obtain rfl := List.mem_singleton.mp mem
        exact ⟨d, h⟩
  | binary left op right span ihl ihr =>
      obtain ⟨a, b, ha, hb, -⟩ := evaluate_binary_eq_ok_iff.mp h
      intro part mem
      rcases List.mem_append.mp mem with mem | mem
      · exact ihl ha part mem
      · rcases List.mem_append.mp mem with mem | mem
        · exact ihr hb part mem
        · obtain rfl := List.mem_singleton.mp mem
          exact ⟨d, h⟩

/-- Parts that have values push them. -/
theorem runNodes_of_evaluate {d : Decimal} (h : e.evaluate limits = .ok d) (stack : List Decimal) :
    runNodes limits e.postorder stack = .ok (d :: stack) := by
  rw [runNodes_postorder, h]
  rfl

/-- If an expression has no value, one of its parts is the first that has none. -/
theorem exists_failsAt (h : e.evaluate limits = .error fault) :
    ∃ before node after, FailsAt limits e before node after fault := by
  induction e with
  | num text span =>
      obtain ⟨malformed, rfl⟩ := evaluateLiteral_eq_error h
      exact ⟨[], num text span, [], rfl, nofun, h,
        fun stack => ⟨stack, rfl, congrArg (push stack) h⟩, .literal malformed⟩
  | neg operand span ih =>
      rcases bind_eq_error.mp h with h | ⟨a, -, ⟨⟩⟩
      obtain ⟨before, node, after, fails⟩ := ih h
      exact ⟨_, node, _, fails.extend [] [neg operand span] rfl nofun fun stack => ⟨stack, rfl⟩⟩
  | binary left op right span ihl ihr =>
      have whole := h
      rw [evaluate_binary] at h
      rcases bind_eq_error.mp h with h | ⟨a, ha, h⟩
      · obtain ⟨before, node, after, fails⟩ := ihl h
        exact ⟨_, node, _, fails.extend [] _ rfl nofun fun stack => ⟨stack, rfl⟩⟩
      have hl := exists_value_of_mem_postorder ha
      rcases bind_eq_error.mp h with h | ⟨b, hb, h⟩
      · obtain ⟨before, node, after, fails⟩ := ihr h
        exact ⟨_, node, _, fails.extend left.postorder _ rfl hl
          fun stack => ⟨_, runNodes_of_evaluate ha stack⟩⟩
      · have hr := exists_value_of_mem_postorder hb
        refine ⟨left.postorder ++ right.postorder, binary left op right span, [], ?_, ?_, whole,
          fun stack => ⟨b :: a :: stack, ?_, congrArg (push stack) h⟩,
          .operation ha hb (Operator.faults_of_apply h)⟩
        · rw [postorder, List.append_assoc]
        · exact fun part mem => (List.mem_append.mp mem).elim (hl part) (hr part)
        · rw [runNodes_append, runNodes_of_evaluate ha]
          exact runNodes_of_evaluate hb (a :: stack)

/-- **Expressions are evaluated strictly, from left to right, up to the first fault.**  Running the
parts in postfix order on the empty stack leaves the value of the expression there and nothing else,
or ends with its fault.  The fault is that of the first part in this order that has no value.  It
lies where this part starts, but for an exponent and for a zero divisor: they are pointed at where
they start, and the divisor is named as it is written. -/
theorem evaluate_postfix (limits : Limits) (e : Expr) :
    e.postorder.map root = e.nodes ∧
      runNodes limits e.postorder [] = push [] (e.evaluate limits) ∧
      ∀ fault, (e.evaluate limits = .error fault ↔
          ∃ before node after, FailsAt limits e before node after fault) ∧
        ∀ before node after, FailsAt limits e before node after fault →
          fault.column = node.faultColumn fault.cause ∧
            ∀ left right span b, node = binary left .div right span →
              right.evaluate limits = .ok b → b.value = 0 →
                fault = ⟨.divisionByZero right.text, right.column⟩ := by
  refine ⟨e.map_root_postorder, runNodes_postorder e [], fun fault => ⟨⟨exists_failsAt, ?_⟩, ?_⟩⟩
  · rintro ⟨before, node, after, h⟩
    exact h.evaluate_eq
  · intro before node after h
    refine ⟨h.faults.column_eq, ?_⟩
    rintro left right span b rfl right_eq zero
    exact h.eq_of_zero right_eq zero

end Expr
end Calculator
