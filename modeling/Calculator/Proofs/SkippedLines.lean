import Calculator.Proofs.LineByLine
import Calculator.Proofs.Prefixes

/-!
# Lines — lines that are skipped

A line of the input is skipped if it holds nothing but white space, and evaluation finds nothing in
a line if it holds nothing but blanks.  White space is more than the blanks of the language.  A line
of other white space is skipped, too, although the evaluation of it would name the first such
character, which starts no token.

* `scan_eq_nil_iff`, `findsNothing_iff`: the lines in which evaluation finds nothing.
* `runInputLine_eq_empty_iff`, `transcript_filter`: the lines that are skipped.
* `answerLine_of_whiteSpace`: what the evaluation of one of the others among them would say.
* `runInput_skips`: **what is skipped and what is not**, for every input.
* `runInput_skips_noBreakSpace`: a line that is skipped and not blank.
-/

namespace Calculator

variable {options : Options} {limits : Limits} {line : String} {c : Char} {xs : List Lexeme}
  {length : Nat}

/-! ### Blanks and white space -/

theorem isWhiteSpace_of_isBlank (h : isBlank c) : isWhiteSpace c := by
  have all : [' ', '\t', '\x0c', '\r', '\n'].all isWhiteSpace := rfl
  exact List.all_eq_true.mp all c (isBlank_iff.mp h)

/-- White space that is not blank starts no token. -/
theorem Token.read?_of_whiteSpace (blank : isBlank c = false) (white : isWhiteSpace c)
    (rest : List Char) : Token.read? c rest = none := by
  have noNumeral : numeralLength (c :: rest) = 0 := by
    by_contra some
    rcases head_numeral some with digit | rfl
    · have lower : 48 ≤ c.toNat := (Char.isDigit_iff_toNat.mp digit).1
      have upper : c.toNat ≤ 57 := (Char.isDigit_iff_toNat.mp digit).2
      simp only [isWhiteSpace, whiteSpaceRanges, List.any_cons, List.any_nil, Bool.or_eq_true,
        Bool.and_eq_true, decide_eq_true_eq, Bool.false_eq_true, or_false] at white
      omega
    · exact absurd white (by decide)
  unfold Token.read?
  rw [if_neg (by simp [blank])]
  split
  case h_7 => rw [noNumeral]
  all_goals exact absurd white (by decide)

/-! ### Lines in which evaluation finds nothing -/

/-- Scanning goes on behind the blanks at the front. -/
theorem scanFrom_behind_blanks {blanks : List Char} (h : ∀ b ∈ blanks, isBlank b) (cs : List Char)
    (offset : Nat) :
    scanFrom (blanks ++ cs) offset 0 [] = scanFrom cs (offset + blanks.length) 0 [] := by
  induction blanks generalizing offset with
  | nil => rfl
  | cons b blanks ih =>
      obtain ⟨blank, behind⟩ := List.forall_mem_cons.mp h
      rw [List.cons_append, scanFrom_blank blank, ih behind, List.length_cons]
      congr 1
      omega

/-- Characters without tokens are blanks. -/
theorem isBlank_of_scanFrom {cs : List Char} {offset : Nat}
    (h : scanFrom cs offset 0 [] = .ok []) : ∀ c ∈ cs, isBlank c := by
  induction cs using scan_induction generalizing offset with
  | nil => rintro _ ⟨⟩
  | blank c rest hc ih =>
      rw [scanFrom_blank hc] at h
      exact List.forall_mem_cons.mpr ⟨hc, ih h⟩
  | token c rest token more hc hr ih =>
      -- the token is in front of whatever is scanned behind it
      rw [scanFrom_token hc hr] at h
      cases hs : scanFrom (rest.drop more) (offset + 1 + more) 0 [] <;> rw [hs] at h <;> cases h
  | stuck c rest hc hr =>
      rw [scanFrom_none hr] at h
      cases h

/-- The lines without tokens are the blank ones. -/
theorem scan_eq_nil_iff : scan line = .ok [] ↔ ∀ c ∈ line.toList, isBlank c :=
  ⟨isBlank_of_scanFrom, fun h => scanFrom_blanks h 0⟩

/-- Lexemes are refused as none only if there are none. -/
theorem parseLexemes_empty_iff :
    (∃ e, parseLexemes xs length = .error e ∧ e.cause = .empty) ↔ xs = [] := by
  constructor
  · rintro ⟨e, failed, empty⟩
    by_contra some
    cases deep : deepGroup? maxDepth 0 xs with
    | none =>
        have earliest := parseLexemes_error some deep failed
        rw [ParseError.Earliest, empty] at earliest
        exact earliest
    | some column =>
        rw [parseLexemes, if_neg (by simpa using some), deep] at failed
        cases failed
        cases empty
  · rintro rfl
    exact ⟨_, rfl, rfl⟩

/-- Evaluation says that there is nothing in the line to evaluate. -/
def FindsNothing (limits : Limits) (line : String) : Prop :=
  ∃ d e, answerLine limits line = .error d ∧ d.failure = .parsing e ∧ e.cause = .empty

/-- Evaluation finds nothing in the lines that hold nothing but blanks. -/
theorem findsNothing_iff : FindsNothing limits line ↔ ∀ c ∈ line.toList, isBlank c := by
  rw [← scan_eq_nil_iff, ← scan_trimLineEnd]
  constructor
  · rintro ⟨d, e, answer, failure, empty⟩
    have failed := parse_of_parsing answer failure
    rw [parse] at failed
    split at failed
    · -- a character that starts no token is something
      rename_i e' stuck
      obtain ⟨_, _, _, _, -, rfl, -⟩ := exists_stuck_of_scan stuck
      cases failed
      cases empty
    · rename_i xs scanned
      rw [scanned, parseLexemes_empty_iff.mp ⟨e, failed, empty⟩]
  · intro scanned
    obtain ⟨e, failed, empty⟩ : ∃ e,
        parseLexemes [] (trimLineEnd line).utf8ByteSize = .error e ∧ e.cause = .empty :=
      parseLexemes_empty_iff.mpr rfl
    have failed : parse (trimLineEnd line) = .error e := by rwa [parse, scanned]
    exact ⟨_, e, answerLine_of_parsing failed, rfl, empty⟩

/-! ### Lines that are skipped -/

/-- A line with anything but white space writes its result, or what is wrong with it. -/
theorem runInputLine_of_some (options : Options) (some : ¬ ∀ c ∈ line.toList, isWhiteSpace c) :
    (∃ v, answerLine options.limits line = .ok v ∧
        runInputLine options line = ⟨0, shownTrees options line ++ v ++ "\n", ""⟩) ∨
      ∃ d, answerLine options.limits line = .error d ∧
        runInputLine options line = ⟨0, shownTrees options line, d.text ++ "\n"⟩ := by
  rw [runInputLine, if_neg (mt List.all_eq_true.mp some), runLine]
  cases answerLine options.limits line with
  | ok v => exact .inl ⟨v, rfl, rfl⟩
  | error d => exact .inr ⟨d, rfl, rfl⟩

/-- The lines that write nothing are those that hold nothing but white space. -/
theorem runInputLine_eq_empty_iff :
    runInputLine options line = {} ↔ ∀ c ∈ line.toList, isWhiteSpace c := by
  constructor
  · intro silent
    by_contra some
    rcases runInputLine_of_some options some with ⟨v, -, written⟩ | ⟨d, -, written⟩
    · have nothing := congrArg Outcome.stdout (written.symm.trans silent)
      simp at nothing
    · have nothing := congrArg Outcome.stderr (written.symm.trans silent)
      simp at nothing
  · intro white
    exact if_pos (List.all_eq_true.mpr white)

/-- White space that is not blank would be named, where it is first. -/
theorem answerLine_of_whiteSpace (white : ∀ c ∈ line.toList, isWhiteSpace c)
    (some : ¬ ∀ c ∈ line.toList, isBlank c) :
    ∃ blanks c rest, line.toList = blanks ++ c :: rest ∧ (∀ b ∈ blanks, isBlank b) ∧
      isBlank c = false ∧ answerLine limits line = .error ⟨trimLineEnd line,
        .parsing ⟨.unexpectedCharacter (String.singleton c), blanks.length + 1, []⟩⟩ := by
  cases found : line.toList.find? (!isBlank ·) with
  | none => exact absurd (by simpa using List.find?_eq_none.mp found) some
  | some c =>
      obtain ⟨unblank, blanks, rest, split, behind⟩ := List.find?_eq_some_iff_append.mp found
      have blank : ∀ b ∈ blanks, isBlank b := by simpa using behind
      have unblank : isBlank c = false := by simpa using unblank
      have none := Token.read?_of_whiteSpace unblank (white c (by simp [split])) rest
      refine ⟨blanks, c, rest, split, blank, unblank, answerLine_of_parsing ?_⟩
      rw [parse, scan_trimLineEnd, scan, split, scanFrom_behind_blanks blank, scanFrom_none none]
      dsimp only
      rw [Nat.zero_add]

/-- A run over lines passes over those that hold nothing but white space. -/
theorem transcript_filter (lines : List String) :
    transcript options (lines.filter fun line => !line.toList.all isWhiteSpace)
      = transcript options lines := by
  induction lines with
  | nil => rfl
  | cons line rest ih =>
      rw [List.filter_cons, transcript]
      split
      · rw [transcript, ih]
      · rename_i skipped
        have white : ∀ c ∈ line.toList, isWhiteSpace c := by simpa using skipped
        rw [ih, runInputLine_eq_empty_iff.mpr white, Outcome.empty_andThen]

/-- **Which lines are skipped.**  A run over a text writes what its lines write, as far as they are
not all white space.  A line writes nothing if and only if it is all white space, and evaluation
finds nothing in it if and only if it is all blank, so that every line in which evaluation finds
nothing is skipped.  A line that is skipped although evaluation finds something has a character that
starts no token, which the diagnostic of the line would name.  Every line that is not skipped writes
its result or its diagnostic. -/
theorem runInput_skips (options : Options) :
    (∀ text, runInput options (textBytes text) = transcript options
      ((textLines text).filter fun line => !line.toList.all isWhiteSpace)) ∧
      ∀ line,
        (runInputLine options line = {} ↔ ∀ c ∈ line.toList, isWhiteSpace c) ∧
        (FindsNothing options.limits line ↔ ∀ c ∈ line.toList, isBlank c) ∧
        (FindsNothing options.limits line → runInputLine options line = {}) ∧
        (runInputLine options line = {} → ¬ FindsNothing options.limits line →
          ∃ blanks c rest, line.toList = blanks ++ c :: rest ∧ (∀ b ∈ blanks, isBlank b) ∧
            isBlank c = false ∧ answerLine options.limits line = .error ⟨trimLineEnd line,
              .parsing ⟨.unexpectedCharacter (String.singleton c), blanks.length + 1, []⟩⟩) ∧
        (runInputLine options line ≠ {} →
          (∃ v, answerLine options.limits line = .ok v ∧
              runInputLine options line = ⟨0, shownTrees options line ++ v ++ "\n", ""⟩) ∨
            ∃ d, answerLine options.limits line = .error d ∧
              runInputLine options line = ⟨0, shownTrees options line, d.text ++ "\n"⟩) := by
  refine ⟨fun text => ?_, fun line => ⟨runInputLine_eq_empty_iff, findsNothing_iff,
    fun nothing => ?_, fun silent some => ?_, fun written => ?_⟩⟩
  · rw [transcript_filter, runInput_textBytes]
  · exact runInputLine_eq_empty_iff.mpr fun c mem =>
      isWhiteSpace_of_isBlank (findsNothing_iff.mp nothing c mem)
  · exact answerLine_of_whiteSpace (runInputLine_eq_empty_iff.mp silent)
      (mt findsNothing_iff.mpr some)
  · exact runInputLine_of_some options (mt runInputLine_eq_empty_iff.mpr written)

/-- A no-break space is a line of white space, and as an expression it is no line of blanks. -/
theorem runInput_skips_noBreakSpace :
    runCommand [] (textBytes "\u00a0\n") = {} ∧ ¬ FindsNothing .standard "\u00a0" ∧
      runCommand ["\u00a0"] []
        = ⟨1, "", "\u00a0\n^\nError at column 1: Unexpected character '\u00a0'.\n"⟩ := by
  have asked : Request.ofArguments [] = .readLines {} := by decide
  have mem : '\u00a0' ∈ "\u00a0".toList := List.mem_singleton.mpr rfl
  refine ⟨?_, fun nothing => ?_, by rfl⟩
  · rw [runCommand, asked]
    exact (runInput_textBytes _).trans rfl
  · exact absurd (findsNothing_iff.mp nothing _ mem) (by decide)

end Calculator
