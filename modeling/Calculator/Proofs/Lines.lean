import Mathlib.Data.List.DropRight
import Calculator.Line
import Calculator.Proofs.Tiling
import Calculator.Tree.Complete

/-!
# Lines — from lexemes to an answer

The answer of a line is that of its lexemes, put in place in the line.  The line ends behind a line
do not count, neither for the lexemes nor for the diagnostic.

* `exists_lineEnd`, `trimLineEnd_trimLineEnd`: what is taken from the end of a text, and that it is
  taken once.
* `scan_trimLineEnd`: the line ends behind a line hold no tokens.
* `parse_eq_ok_iff`: what a line is parsed to depends on its tokens alone.
* `answerLine_eq`: a line is answered with its value, or with a diagnostic of what is wrong with it.
-/

namespace Calculator

variable {limits : Limits} {text : String}

/-! ### Line ends -/

/-- Line ends, and nothing else, are taken from the end of a text. -/
theorem exists_lineEnd (text : String) :
    ∃ tail, text.toList = (trimLineEnd text).toList ++ tail ∧ ∀ c ∈ tail, isLineEnd c := by
  refine ⟨(text.toList.reverse.takeWhile isLineEnd).reverse, ?_, fun c hc => ?_⟩
  · rw [trimLineEnd, String.toList_ofList, ← List.reverse_append, List.takeWhile_append_dropWhile,
      List.reverse_reverse]
  · exact List.all_eq_true.mp List.all_takeWhile c (List.mem_reverse.mp hc)

/-- A line without line ends behind it stays what it is. -/
theorem trimLineEnd_trimLineEnd (text : String) :
    trimLineEnd (trimLineEnd text) = trimLineEnd text := by
  rw [trimLineEnd, trimLineEnd, String.toList_ofList, List.reverse_reverse,
    List.dropWhile_idempotent]

theorem isBlank_of_isLineEnd {c : Char} (h : isLineEnd c) : isBlank c := by
  simp only [isLineEnd, Bool.or_eq_true, decide_eq_true_eq] at h
  rcases h with rfl | rfl <;> rfl

/-- The line ends behind a line hold no tokens. -/
theorem scan_trimLineEnd (text : String) : scan (trimLineEnd text) = scan text := by
  obtain ⟨tail, split, lineEnds⟩ := exists_lineEnd text
  rw [scan, scan, split, scanFrom_append_blanks _ fun c hc => isBlank_of_isLineEnd (lineEnds c hc)]

theorem utf8ByteSize_trimLineEnd_le (text : String) :
    (trimLineEnd text).utf8ByteSize ≤ text.utf8ByteSize := by
  obtain ⟨tail, split, -⟩ := exists_lineEnd text
  have size := congrArg byteLength split
  rw [byteLength_append, byteLength, byteLength, String.ofList_toList, String.ofList_toList] at size
  omega

/-! ### Answers -/

/-- A line that is parsed is scanned, to the lexemes of its tree, and it does not nest too deep. -/
theorem scan_of_parse {t : ExprTree} (h : parse text = .ok t) :
    scan text = .ok t.lexemes ∧ t.depth ≤ maxDepth := by
  rw [parse] at h
  split at h
  · cases h
  · rename_i xs scanned
    rw [parseLexemes_lexemes h]
    exact ⟨scanned, parseLexemes_depth_le h⟩

/-- A line is parsed to the trees that derive its tokens and do not nest too deep. -/
theorem parse_eq_ok_iff {t : ExprTree} :
    parse text = .ok t ↔ scan text = .ok t.lexemes ∧ t.depth ≤ maxDepth := by
  refine ⟨scan_of_parse, fun ⟨scanned, flat⟩ => ?_⟩
  rw [parse, scanned]
  exact parseLexemes_of_lexemes t _ flat

/-- A fault in parsing is that of the line without the line ends behind it. -/
theorem parse_of_parsing {d : Diagnostic} {e : ParseError}
    (h : answerLine limits text = .error d) (he : d.failure = .parsing e) :
    parse (trimLineEnd text) = .error e := by
  rw [answerLine] at h
  split at h
  · rename_i e' failed
    obtain rfl := Except.error.inj h
    cases he
    exact failed
  · split at h
    · obtain rfl := Except.error.inj h
      cases he
    · cases h

theorem answerLine_of_parsing {e : ParseError} (h : parse (trimLineEnd text) = .error e) :
    answerLine limits text = .error ⟨trimLineEnd text, .parsing e⟩ := by
  rw [answerLine, h]
  simp only [Diagnostic.ofText, trimLineEnd_trimLineEnd]

/-- A fault in evaluating is that of the expression of the line. -/
theorem exists_of_evaluation {d : Diagnostic} {e : EvalError}
    (h : answerLine limits text = .error d) (he : d.failure = .evaluation e) :
    ∃ t, parse (trimLineEnd text) = .ok t ∧ t.toExpr.evaluate limits = .error e := by
  rw [answerLine] at h
  split at h
  · obtain rfl := Except.error.inj h
    cases he
  · rename_i t parsed
    split at h
    · rename_i e' failed
      obtain rfl := Except.error.inj h
      cases he
      exact ⟨t, parsed, failed⟩
    · cases h

/-- The value of the lexemes of a line of `length` bytes, or what is wrong with them. -/
def evaluateLexemes (limits : Limits) (xs : List Lexeme) (length : Nat) : Except Failure Decimal :=
  match parseLexemes xs length with
  | .error e => .error (.parsing e)
  | .ok t => (t.toExpr.evaluate limits).mapError .evaluation

/-- The value of a line, or what is wrong with it. -/
def evaluateLine (limits : Limits) (line : String) : Except Failure Decimal :=
  match scan line with
  | .error e => .error (.parsing e)
  | .ok xs => evaluateLexemes limits xs line.utf8ByteSize

/-- A line is answered with its value, or with a diagnostic of what is wrong with it. -/
theorem answerLine_eq (limits : Limits) (text : String) : answerLine limits text
    = match evaluateLine limits (trimLineEnd text) with
      | .error failure => .error ⟨trimLineEnd text, failure⟩
      | .ok d => .ok d.grouped := by
  simp only [answerLine, parse, evaluateLine, evaluateLexemes, Diagnostic.ofText,
    trimLineEnd_trimLineEnd]
  cases scan (trimLineEnd text) with
  | error e => rfl
  | ok xs =>
      dsimp only
      cases parseLexemes xs (trimLineEnd text).utf8ByteSize with
      | error e => rfl
      | ok t =>
          dsimp only
          cases t.toExpr.evaluate limits <;> rfl

end Calculator
