import Calculator.Command.Run
import Calculator.Proofs.Lines

/-!
# Command — line by line

A run over the input is made of runs over its lines, and nothing is carried from one to the next.
Text is cut into the same lines as characters and as bytes, since no byte of a longer encoding looks
like a line feed or a carriage return.  Whether a line feed is behind the last line makes no
difference: all that it adds is a line with nothing on it, or it takes a carriage return from the
end of a line, which is blank.

* `inputLines_textBytes`: the lines of the bytes of a text are the bytes of its lines.
* `runInputLine_return`: a carriage return behind a line does not count.
* `runLinesAfter_eq`: what was written before a run does not matter to it.
* `runCommand_append`: **the input is run line by line**.
-/

namespace Calculator

/-! ### Texts as bytes -/

/-- The bytes that encode a text. -/
def textBytes (text : String) : List UInt8 := text.toUTF8.data.toList

/-- Bytes that encode a text. -/
def IsText (bytes : List UInt8) : Prop := ∃ text, bytes = textBytes text

theorem textBytes_ofList (cs : List Char) :
    textBytes (String.ofList cs) = cs.flatMap String.utf8EncodeChar := by
  rw [textBytes, String.toUTF8_eq_toByteArray, String.toByteArray_ofList, List.utf8Encode,
    List.data_toByteArray]

theorem decodeLine?_textBytes (text : String) : decodeLine? (textBytes text) = some text := by
  rw [decodeLine?, textBytes, Array.toArray_toList]
  exact dif_pos text.isValidUTF8

/-- Bytes are decoded if and only if they encode a text. -/
theorem decodeLine?_eq_some_iff {bytes : List UInt8} {text : String} :
    decodeLine? bytes = some text ↔ bytes = textBytes text := by
  refine ⟨fun h => ?_, fun h => h ▸ decodeLine?_textBytes text⟩
  rw [decodeLine?, String.fromUTF8?] at h
  split at h
  · cases h
    rfl
  · cases h

theorem decodeLine?_eq_none_iff {bytes : List UInt8} : decodeLine? bytes = none ↔ ¬IsText bytes := by
  rw [IsText, Option.eq_none_iff_forall_ne_some]
  simp only [ne_eq, decodeLine?_eq_some_iff, not_exists]

/-- Characters that are not ASCII are encoded in bytes that are not ASCII. -/
theorem le_of_mem_utf8EncodeChar {c : Char} (large : 0x7f < c.toNat) :
    ∀ b ∈ String.utf8EncodeChar c, 128 ≤ b.toNat := by
  have high {n : Nat} (le : 128 ≤ n) (lt : n < 256) : 128 ≤ (UInt8.ofNat n).toNat := by
    rwa [UInt8.toNat_ofNat', Nat.mod_eq_of_lt lt]
  fun_cases String.utf8EncodeChar c with
  | case1 _ small => exact absurd small (Nat.not_le.mpr large)
  | _ =>
      simp only [List.forall_mem_cons, List.not_mem_nil, false_imp_iff, implies_true, and_true]
      repeat' apply And.intro
      all_goals exact high (by omega) (by omega)

theorem utf8EncodeChar_of_le {c : Char} (small : c.toNat ≤ 0x7f) :
    String.utf8EncodeChar c = [UInt8.ofNat c.toNat] := if_pos small

/-- The byte of an ASCII character is in the encoding of no other character. -/
theorem mem_utf8EncodeChar_iff {a c : Char} (ascii : a.toNat ≤ 0x7f) :
    UInt8.ofNat a.toNat ∈ String.utf8EncodeChar c ↔ c = a := by
  have byte : (UInt8.ofNat a.toNat).toNat = a.toNat := by
    rw [UInt8.toNat_ofNat', Nat.mod_eq_of_lt (by omega)]
  refine ⟨fun h => ?_, ?_⟩
  · rcases Nat.lt_or_ge 0x7f c.toNat with large | small
    · have := le_of_mem_utf8EncodeChar large _ h
      omega
    · rw [utf8EncodeChar_of_le small, List.mem_singleton] at h
      have codes := congrArg UInt8.toNat h
      rw [byte, UInt8.toNat_ofNat', Nat.mod_eq_of_lt (by omega)] at codes
      exact Char.toNat_inj.mp codes.symm
  · rintro rfl
    rw [utf8EncodeChar_of_le ascii]
    exact List.mem_singleton_self _

theorem lineFeed_mem_iff {c : Char} : lineFeed ∈ String.utf8EncodeChar c ↔ c = '\n' :=
  mem_utf8EncodeChar_iff (a := '\n') (by decide)

theorem carriageReturn_mem_iff {c : Char} : carriageReturn ∈ String.utf8EncodeChar c ↔ c = '\r' :=
  mem_utf8EncodeChar_iff (a := '\r') (by decide)

/-! ### Lines of texts -/

/-- A line, latest character first, without a carriage return at its end. -/
def trimReturn : List Char → List Char
  | [] => []
  | c :: rest => if c = '\r' then rest else c :: rest

/-- Cuts characters into lines, behind the characters of an open line, latest first. -/
def cutText : (current : List Char) → List Char → List (List Char)
  | [], [] => []
  | c :: current, [] => [(c :: current).reverse]
  | current, c :: rest =>
    if c = '\n' then (trimReturn current).reverse :: cutText [] rest else cutText (c :: current) rest

/-- The lines of a text, without their ends. -/
def textLines (text : String) : List String := (cutText [] text.toList).map String.ofList

/-- The bytes of an open line, latest first. -/
def openBytes (current : List Char) : List UInt8 :=
  current.flatMap fun c => (String.utf8EncodeChar c).reverse

theorem reverse_openBytes (current : List Char) :
    (openBytes current).reverse = current.reverse.flatMap String.utf8EncodeChar := by
  rw [openBytes, List.reverse_flatMap]
  simp only [Function.comp_def, List.reverse_reverse]

theorem openBytes_ne_nil (c : Char) (current : List Char) : openBytes (c :: current) ≠ [] := by
  rw [openBytes, List.flatMap_cons]
  exact List.append_ne_nil_of_left_ne_nil
    (mt List.reverse_eq_nil_iff.mp String.utf8EncodeChar_ne_nil) _

theorem dropReturn_openBytes (current : List Char) :
    dropReturn (openBytes current) = openBytes (trimReturn current) := by
  rcases current with - | ⟨c, current⟩
  · rfl
  rw [openBytes, List.flatMap_cons, trimReturn]
  split
  · rename_i isReturn
    rw [isReturn]
    rfl
  · rename_i noReturn
    obtain ⟨front, b, split⟩ :=
      (List.eq_nil_or_concat (String.utf8EncodeChar c)).resolve_left String.utf8EncodeChar_ne_nil
    rw [List.concat_eq_append] at split
    have noReturn : b ≠ carriageReturn := by
      rintro rfl
      exact noReturn (carriageReturn_mem_iff.mp (split ▸ by simp))
    rw [openBytes, List.flatMap_cons, split, List.reverse_append]
    exact if_neg noReturn

theorem cutLines_nil {current : List UInt8} (h : current ≠ []) :
    cutLines current [] [] = [current.reverse] := by
  rcases current with - | ⟨b, current⟩
  · contradiction
  · rfl

/-- Bytes without a line feed are added to the open line. -/
theorem cutLines_of_notMem {bytes : List UInt8} (h : lineFeed ∉ bytes) (current rest : List UInt8) :
    cutLines current [] (bytes ++ rest) = cutLines (bytes.reverse ++ current) [] rest := by
  induction bytes generalizing current with
  | nil => rfl
  | cons b bytes ih =>
      rw [List.mem_cons, not_or] at h
      rw [List.cons_append, cutLines, if_neg (Ne.symm h.1), ih h.2, List.reverse_cons,
        List.append_assoc]
      rfl

/-- Characters and their bytes are cut at the same places. -/
theorem cutLines_flatMap (current cs : List Char) :
    cutLines (openBytes current) [] (cs.flatMap String.utf8EncodeChar)
      = (cutText current cs).map fun line => line.flatMap String.utf8EncodeChar := by
  induction cs generalizing current with
  | nil =>
      rcases current with - | ⟨c, current⟩
      · rfl
      · rw [List.flatMap_nil, cutLines_nil (openBytes_ne_nil c current), reverse_openBytes]
        rfl
  | cons c cs ih =>
      rw [List.flatMap_cons, cutText]
      split
      · rename_i ends
        have byte : String.utf8EncodeChar c = [lineFeed] := ends ▸ rfl
        rw [byte, List.singleton_append, cutLines, if_pos rfl, cutLines_found, dropReturn_openBytes,
          reverse_openBytes]
        exact congrArg _ (ih [])
      · rename_i inside
        rw [cutLines_of_notMem (mt lineFeed_mem_iff.mp inside)]
        exact ih (c :: current)

/-- The lines of the bytes of a text are the bytes of its lines. -/
theorem inputLines_textBytes (text : String) :
    inputLines (textBytes text) = (textLines text).map textBytes := by
  have bytes := textBytes_ofList text.toList
  rw [String.ofList_toList] at bytes
  rw [inputLines, bytes, textLines, List.map_map]
  refine (cutLines_flatMap [] text.toList).trans (List.map_congr_left fun line _ => ?_)
  exact (textBytes_ofList line).symm

/-! ### Line ends -/

variable {options : Options}

/-- The trees that are shown are those of the tokens. -/
theorem shownTrees_of_scan {a b : String} (h : scan a = scan b) :
    shownTrees options a = shownTrees options b := by
  have trees (t : ExprTree) : parse a = .ok t ↔ parse b = .ok t := by
    rw [parse_eq_ok_iff, parse_eq_ok_iff, h]
  rw [shownTrees, shownTrees]
  cases parsed : parse b with
  | ok t => rw [(trees t).mpr parsed]
  | error e =>
      cases parsed' : parse a with
      | ok t => rw [(trees t).mp parsed'] at parsed; cases parsed
      | error e' => rfl

theorem runLine_trimLineEnd (line : String) :
    runLine options (trimLineEnd line) = runLine options line := by
  have answers : answerLine options.limits (trimLineEnd line) = answerLine options.limits line := by
    rw [answerLine_eq, answerLine_eq, trimLineEnd_trimLineEnd]
  rw [runLine, runLine, answers, shownTrees_of_scan (scan_trimLineEnd line)]

/-- Line ends behind a line do not count, be it blank or not. -/
theorem runInputLine_trimLineEnd (line : String) :
    runInputLine options (trimLineEnd line) = runInputLine options line := by
  obtain ⟨tail, split, lineEnds⟩ := exists_lineEnd line
  have blank : tail.all isWhiteSpace := by
    refine List.all_eq_true.mpr fun c hc => ?_
    have := lineEnds c hc
    simp only [isLineEnd, Bool.or_eq_true, decide_eq_true_eq] at this
    rcases this with rfl | rfl <;> rfl
  rw [runInputLine, runInputLine, runLine_trimLineEnd, split, List.all_append, blank, Bool.and_true]

/-- A carriage return behind a line does not count. -/
theorem runInputLine_return (current : List Char) :
    runInputLine options (String.ofList (trimReturn current).reverse)
      = runInputLine options (String.ofList current.reverse) := by
  have same : (trimReturn current).dropWhile isLineEnd = current.dropWhile isLineEnd := by
    rcases current with - | ⟨c, current⟩
    · rfl
    · rw [trimReturn]
      split
      · rename_i isReturn
        rw [isReturn]
        rfl
      · rfl
  have trimmed : trimLineEnd (String.ofList (trimReturn current).reverse)
      = trimLineEnd (String.ofList current.reverse) := by
    rw [trimLineEnd, trimLineEnd, String.toList_ofList, String.toList_ofList, List.reverse_reverse,
      List.reverse_reverse, same]
  rw [← runInputLine_trimLineEnd, trimmed, runInputLine_trimLineEnd]

/-! ### Runs over lines -/

namespace Outcome

theorem empty_andThen (a : Outcome) : ({} : Outcome).andThen a = a := by
  rw [andThen, String.empty_append, String.empty_append]

theorem andThen_empty {a : Outcome} (h : a.code = 0) : a.andThen {} = a := by
  rw [andThen, String.append_empty, String.append_empty, ← h]

theorem andThen_assoc (a b c : Outcome) : (a.andThen b).andThen c = a.andThen (b.andThen c) := by
  simp only [andThen, String.append_assoc]

end Outcome

/-- What the lines of the input write, one after the other. -/
def transcript (options : Options) : List String → Outcome
  | [] => {}
  | line :: rest => (runInputLine options line).andThen (transcript options rest)

theorem code_runInputLine (line : String) : (runInputLine options line).code = 0 := by
  rw [runInputLine]
  split <;> rfl

theorem code_transcript (lines : List String) : (transcript options lines).code = 0 := by
  induction lines with
  | nil => rfl
  | cons line rest ih => exact ih

/-- What was written before does not matter to a run. -/
theorem runLinesAfter_eq {written : Outcome} (h : written.code = 0) (lines : List (List UInt8)) :
    runLinesAfter options written lines = written.andThen (runLinesAfter options {} lines) := by
  induction lines generalizing written with
  | nil => exact (Outcome.andThen_empty h).symm
  | cons bytes rest ih =>
      rw [runLinesAfter, runLinesAfter]
      cases decodeLine? bytes with
      | none => rw [Outcome.empty_andThen]
      | some line =>
          dsimp only
          have code : (runInputLine options line).code = 0 := code_runInputLine line
          rw [Outcome.empty_andThen, ih code, ← Outcome.andThen_assoc]
          exact ih code

/-- Lines that are text are run in order, and the others after them. -/
theorem runLinesAfter_textBytes (lines : List String) (rest : List (List UInt8)) :
    runLinesAfter options {} (lines.map textBytes ++ rest)
      = (transcript options lines).andThen (runLinesAfter options {} rest) := by
  induction lines with
  | nil => exact (Outcome.empty_andThen _).symm
  | cons line lines ih =>
      rw [List.map_cons, List.cons_append, runLinesAfter, decodeLine?_textBytes]
      dsimp only
      rw [Outcome.empty_andThen, runLinesAfter_eq (code_runInputLine line), ih, transcript,
        Outcome.andThen_assoc]

/-- A line feed behind a text adds nothing to what its lines write. -/
theorem transcript_cutText (current cs : List Char) :
    transcript options ((cutText current (cs ++ ['\n'])).map String.ofList)
      = transcript options ((cutText current cs).map String.ofList) := by
  induction cs generalizing current with
  | nil =>
      rcases current with - | ⟨c, current⟩
      · rfl
      · exact congrArg (Outcome.andThen · {}) (runInputLine_return (c :: current))
  | cons c cs ih =>
      rw [List.cons_append, cutText, cutText]
      split
      · exact congrArg ((runInputLine options _).andThen ·) (ih [])
      · exact ih (c :: current)

/-- Lines are texts up to the first that is not, if there is one. -/
theorem texts_or_notText (lines : List (List UInt8)) :
    (∃ texts : List String, lines = texts.map textBytes) ∨
      ∃ (texts : List String) (bytes : List UInt8) (after : List (List UInt8)),
        lines = texts.map textBytes ++ bytes :: after ∧ ¬IsText bytes := by
  induction lines with
  | nil => exact .inl ⟨[], rfl⟩
  | cons first rest ih =>
      by_cases isText : IsText first
      · obtain ⟨text, rfl⟩ := isText
        rcases ih with ⟨texts, rfl⟩ | ⟨texts, bytes, after, rfl, notText⟩
        · exact .inl ⟨text :: texts, rfl⟩
        · exact .inr ⟨text :: texts, bytes, after, rfl, notText⟩
      · exact .inr ⟨[], first, rest, rfl, isText⟩

/-! ### The command -/

/-- A run over lines that are all text writes what the lines write. -/
theorem runInput_of_texts {input : List UInt8} {lines : List String}
    (h : inputLines input = lines.map textBytes) :
    runInput options input = transcript options lines := by
  rw [runInput, h, ← List.append_nil (lines.map textBytes), runLinesAfter_textBytes]
  exact Outcome.andThen_empty (code_transcript lines)

theorem runInput_textBytes (text : String) :
    runInput options (textBytes text) = transcript options (textLines text) :=
  runInput_of_texts (inputLines_textBytes text)

theorem runInput_append (text : String) (rest : List UInt8) :
    runInput options (textBytes text ++ lineFeed :: rest)
      = (runInput options (textBytes text)).andThen (runInput options rest) := by
  have ended : textBytes text ++ [lineFeed] = textBytes (String.ofList (text.toList ++ ['\n'])) := by
    rw [textBytes_ofList, List.flatMap_append, ← textBytes_ofList, String.ofList_toList]
    rfl
  rw [runInput, inputLines_append, ended, inputLines_textBytes, runLinesAfter_textBytes,
    runInput_textBytes, textLines, String.toList_ofList, transcript_cutText]
  rfl

/-- What a run over the input writes, as far as its lines are text. -/
theorem runInput_cases (options : Options) (input : List UInt8) :
    (∃ lines : List String, inputLines input = lines.map textBytes ∧
        runInput options input = transcript options lines) ∨
      ∃ (lines : List String) (bytes : List UInt8) (after : List (List UInt8)),
        inputLines input = lines.map textBytes ++ bytes :: after ∧ ¬IsText bytes ∧
          runInput options input
            = (transcript options lines).andThen ⟨1, "", notTextMessage⟩ := by
  rcases texts_or_notText (inputLines input) with ⟨lines, h⟩ | ⟨lines, bytes, after, h, notText⟩
  · exact .inl ⟨lines, h, runInput_of_texts h⟩
  · refine .inr ⟨lines, bytes, after, h, notText, ?_⟩
    rw [runInput, h, runLinesAfter_textBytes, runLinesAfter, decodeLine?_eq_none_iff.mpr notText]
    rfl

/-- **The input is run line by line.**  A run over a text, a line feed and any bytes is the run over
the text and then the run over the bytes, which decides on the code; the run over the text succeeds,
whatever its lines are.  A run writes what its lines write, one after the other, up to the first
line that is not text; it fails if and only if there is such a line, and says so. -/
theorem runCommand_append {arguments : List String}
    (h : Request.ofArguments arguments = .readLines options) :
    (∀ (text : String) (rest : List UInt8),
        runCommand arguments (textBytes text ++ lineFeed :: rest)
          = (runCommand arguments (textBytes text)).andThen (runCommand arguments rest)) ∧
      (∀ text : String, (runCommand arguments (textBytes text)).code = 0) ∧
      ∀ input : List UInt8,
        ((runCommand arguments input).code ≠ 0 ↔ ∃ bytes ∈ inputLines input, ¬IsText bytes) ∧
          ((∃ lines : List String, inputLines input = lines.map textBytes ∧
              runCommand arguments input = transcript options lines) ∨
            ∃ (lines : List String) (bytes : List UInt8) (after : List (List UInt8)),
              inputLines input = lines.map textBytes ++ bytes :: after ∧ ¬IsText bytes ∧
                runCommand arguments input
                  = (transcript options lines).andThen ⟨1, "", notTextMessage⟩) := by
  have run (input : List UInt8) : runCommand arguments input = runInput options input := by
    rw [runCommand, h]
    rfl
  simp only [run]
  refine ⟨runInput_append, fun text => ?_, fun input => ?_⟩
  · rw [runInput_textBytes]
    exact code_transcript _
  · refine ⟨?_, runInput_cases options input⟩
    rcases runInput_cases options input with
      ⟨lines, cut, written⟩ | ⟨lines, bytes, after, cut, notText, written⟩
    · rw [written, cut]
      refine iff_of_false (not_not.mpr (code_transcript lines)) ?_
      rintro ⟨bytes, mem, notText⟩
      obtain ⟨line, -, rfl⟩ := List.mem_map.mp mem
      exact notText ⟨line, rfl⟩
    · rw [written, cut]
      exact iff_of_true (show (1 : UInt32) ≠ 0 by decide) ⟨bytes, by simp, notText⟩

/-- Two lines with a blank one between them, and a carriage return where the text ends. -/
def quotientAndSum : String := "2 / 0\n\n(1)+2\r"

/-- Lines without a value do not end the run, bytes that are no text do. -/
theorem runCommand_quotientAndSum :
    Request.ofArguments ["--show-ast"] = .readLines { showExpr := true } ∧
      runCommand ["--show-ast"] (textBytes quotientAndSum ++ lineFeed :: [0xff])
        = ⟨1, "ast:  (2 / 0)\nast:  (1 + 2)\n3\n",
            "2 / 0\n    ^\nError at column 5: Division by zero: '0' evaluates to 0.\n"
              ++ notTextMessage⟩ := by
  have asked : Request.ofArguments ["--show-ast"] = .readLines { showExpr := true } := by decide
  have first : runCommand ["--show-ast"] (textBytes quotientAndSum)
      = transcript { showExpr := true } (textLines quotientAndSum) := by
    rw [runCommand, asked]
    exact runInput_textBytes _
  have last : runCommand ["--show-ast"] [0xff] = ⟨1, "", notTextMessage⟩ := by rfl
  refine ⟨asked, ?_⟩
  rw [(runCommand_append asked).1, first, last]
  rfl

end Calculator
