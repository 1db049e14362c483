import Calculator.Proofs.LineByLine
import Calculator.Proofs.Transparency

/-!
# Lines — what is shown and what is evaluated

The trees of a line are shown as it is given, with the line ends behind it, and its answer is that
of the line without them.  Both come from one tree all the same: line ends are blank, so that they
neither hold a token nor end one early, and what is read from the tokens does not depend on where
the line ends.  Only the fault of a line that is no expression does.

* `parse_trimLineEnd_eq_ok_iff`: line ends behind a line do not change what it is parsed to.
* `answerLine_of_parse`, `exists_of_parse_eq_error`: the answer, by what the line is parsed to.
* `shownTrees_ne_empty_iff`: trees are shown in front of the lines that are parsed.
* `exists_parse_iff`: those are the lines that do not fail with a parse error.
* `runLine_shows_evaluated`: **the expression that is shown is the one that is evaluated**.
-/

namespace Calculator

variable {limits : Limits} {options : Options} {text : String} {t : ExprTree}

/-! ### Answers of parsed lines -/

/-- Line ends behind a line do not change what it is parsed to. -/
theorem parse_trimLineEnd_eq_ok_iff : parse (trimLineEnd text) = .ok t ↔ parse text = .ok t := by
  rw [parse_eq_ok_iff, parse_eq_ok_iff, scan_trimLineEnd]

/-- A line that is parsed, line ends included, is answered with the value of its expression. -/
theorem answerLine_of_parse (parsed : parse text = .ok t) : answerLine limits text
    = match t.toExpr.evaluate limits with
      | .error e => .error ⟨trimLineEnd text, .evaluation e⟩
      | .ok d => .ok d.grouped := by
  obtain ⟨scanned, flat⟩ := scan_of_parse parsed
  rw [answerLine_of_scan scanned flat]
  cases t.toExpr.evaluate limits with
  | error e => simp only [Diagnostic.ofText, trimLineEnd_trimLineEnd]
  | ok d => rfl

/-- A line that is not parsed is not parsed without line ends, either. -/
theorem exists_of_parse_eq_error (limits : Limits) {e : ParseError}
    (failed : parse text = .error e) :
    ∃ e', answerLine limits text = .error ⟨trimLineEnd text, .parsing e'⟩ := by
  cases trimmed : parse (trimLineEnd text) with
  | ok t => cases failed.symm.trans (parse_trimLineEnd_eq_ok_iff.mp trimmed)
  | error e' => exact ⟨e', answerLine_of_parsing trimmed⟩

/-! ### Trees that are shown -/

/-- The lines that show a tree and its expression, as far as they are asked for. -/
def Options.treeLines (options : Options) (t : ExprTree) : String :=
  (if options.showTree then "tree: " ++ t.text ++ "\n" else "")
    ++ (if options.showExpr then "ast:  " ++ t.toExpr.text ++ "\n" else "")

theorem treeLines_ne_empty_iff :
    options.treeLines t ≠ "" ↔ options.showTree ∨ options.showExpr := by
  rw [Options.treeLines]
  cases options.showTree <;> cases options.showExpr <;> simp

theorem shownTrees_of_parse (parsed : parse text = .ok t) :
    shownTrees options text = options.treeLines t := by
  rw [shownTrees, parsed]
  rfl

theorem shownTrees_of_error {e : ParseError} (failed : parse text = .error e) :
    shownTrees options text = "" := by
  rw [shownTrees, failed]

/-- Trees are shown in front of the lines that are parsed, if they are asked for. -/
theorem shownTrees_ne_empty_iff : shownTrees options text ≠ "" ↔
    (options.showTree ∨ options.showExpr) ∧ ∃ t, parse text = .ok t := by
  cases parsed : parse text with
  | error e => simp [shownTrees_of_error parsed]
  | ok t => simp [shownTrees_of_parse parsed, treeLines_ne_empty_iff]

/-! ### Answers and trees -/

/-- A line is parsed if and only if it does not fail with a parse error. -/
theorem exists_parse_iff : (∃ t, parse text = .ok t) ↔
    ∀ d e, answerLine limits text = .error d → d.failure ≠ .parsing e := by
  constructor
  · rintro ⟨t, parsed⟩ d e answer isParsing
    rw [answerLine_of_parse parsed] at answer
    split at answer <;> cases answer
    cases isParsing
  · intro answered
    cases parsed : parse text with
    | ok t => exact ⟨t, rfl⟩
    | error e =>
        obtain ⟨e', answer⟩ := exists_of_parse_eq_error limits parsed
        exact absurd rfl (answered _ e' answer)

/-- **The expression that is shown is the one that is evaluated.**  Whatever the limits, and
whatever line ends stand behind a line, it is parsed if and only if it does not fail with a parse
error.  Then its answer is the value of the expression that it is parsed to, or the fault of this
expression, and the trees in front of the answer are those of the expression.  No trees are in front
of any other answer. -/
theorem runLine_shows_evaluated (options : Options) (text : String) :
    ((∃ t, parse text = .ok t) ↔
        ∀ d e, answerLine options.limits text = .error d → d.failure ≠ .parsing e) ∧
      (shownTrees options text ≠ "" ↔
        (options.showTree ∨ options.showExpr) ∧ ∃ t, parse text = .ok t) ∧
      (∀ t v, parse text = .ok t → t.toExpr.evaluate options.limits = .ok v →
        answerLine options.limits text = .ok v.grouped ∧
          runLine options text = ⟨0, options.treeLines t ++ v.grouped ++ "\n", ""⟩) ∧
      (∀ t e, parse text = .ok t → t.toExpr.evaluate options.limits = .error e →
        answerLine options.limits text = .error ⟨trimLineEnd text, .evaluation e⟩ ∧
          runLine options text = ⟨1, options.treeLines t,
            (⟨trimLineEnd text, .evaluation e⟩ : Diagnostic).text ++ "\n"⟩) ∧
      ∀ e, parse text = .error e →
        ∃ e', answerLine options.limits text = .error ⟨trimLineEnd text, .parsing e'⟩ ∧
          runLine options text
            = ⟨1, "", (⟨trimLineEnd text, .parsing e'⟩ : Diagnostic).text ++ "\n"⟩ := by
  refine ⟨exists_parse_iff, shownTrees_ne_empty_iff, fun t v parsed evaluated => ?_,
    fun t e parsed failed => ?_, fun e failed => ?_⟩
  · have answer : answerLine options.limits text = .ok v.grouped := by
      rw [answerLine_of_parse parsed, evaluated]
    refine ⟨answer, ?_⟩
    rw [runLine, answer, shownTrees_of_parse parsed]
  · have answer : answerLine options.limits text = .error ⟨trimLineEnd text, .evaluation e⟩ := by
      rw [answerLine_of_parse parsed, failed]
    refine ⟨answer, ?_⟩
    rw [runLine, answer, shownTrees_of_parse parsed]
  · obtain ⟨e', answer⟩ := exists_of_parse_eq_error options.limits failed
    refine ⟨e', answer, ?_⟩
    rw [runLine, answer, shownTrees_of_error failed]

end Calculator
