import Calculator.Proofs.Columns

/-!
# Faults — carets

A line with a fault is ASCII in front of the fault, so that the column of the fault, which counts
bytes, is the place of a character, and the caret stands under that character.

* `Tiled.ascii`: in front of a token there is nothing but ASCII.
* `Diagnostic.PointsAt`: the place in its line that a diagnostic points at.
* `answerLine_points`: **every diagnostic points into its line**, at a token, at the character that
  starts none, or behind a line that ends too early.
-/

namespace Calculator

/-! ### Characters in front of a fault -/

/-- Of two cuts of a line, the one at the later byte has more in front of it. -/
theorem exists_append_of_byteLength {a b x y : List Char} (h : a ++ x = b ++ y)
    (le : byteLength a ≤ byteLength b) : ∃ cs, b = a ++ cs ∧ x = cs ++ y := by
  rcases List.append_eq_append_iff.mp h with cut | ⟨cs, rfl, rfl⟩
  · exact cut
  · have same : byteLength (b ++ cs) = byteLength b := by
      rw [byteLength_append] at le ⊢
      omega
    obtain ⟨e, -⟩ := append_inj_of_byteLength (h.trans rfl) same
    obtain rfl : cs = [] := List.append_right_eq_self.mp e
    exact ⟨[], by simp, rfl⟩

/-- The character at a byte of a text that stands in a line is one of the text. -/
theorem mem_of_byteLength {before after text a b : List Char} {c : Char}
    (h : a ++ (text ++ b) = before ++ c :: after) (lower : byteLength a ≤ byteLength before)
    (upper : byteLength before < byteLength a + byteLength text) : c ∈ text := by
  obtain ⟨cs, rfl, split⟩ := exists_append_of_byteLength h lower
  rw [byteLength_append] at upper
  obtain ⟨ds, rfl, behind⟩ := exists_append_of_byteLength split.symm (by omega)
  rcases ds with - | ⟨d, ds⟩
  · rw [List.append_nil] at upper
    omega
  · obtain ⟨rfl, -⟩ := List.cons.inj behind
    exact List.mem_append_right _ List.mem_cons_self

/-- Lexemes, and the blanks between them, have one byte a character. -/
theorem Tiled.utf8Size_eq_one {line before after : List Char} {c : Char} {start stop : Nat}
    {xs : List Lexeme} (tiled : Tiled line start stop xs) (h : line = before ++ c :: after)
    (lower : start ≤ byteLength before) (upper : byteLength before < stop) : c.utf8Size = 1 := by
  by_cases outside : ∀ x ∈ xs, byteLength before < x.span.start ∨ x.span.stop ≤ byteLength before
  · -- what is in no lexeme is blank
    have blank : isBlank c := isBlank_iff.mpr (tiled.blank before c after h lower upper outside)
    have mem : [c] ∈ Token.blank.pattern :=
      Pattern.mem_oneOf_mul_kstar.mpr ⟨nofun, List.forall_mem_singleton.mpr (isBlank_iff.mp blank)⟩
    exact Token.utf8Size_of_mem mem c List.mem_cons_self
  · push Not at outside
    obtain ⟨x, mem, lower, upper⟩ := outside
    -- the text of a lexeme has the pattern of its token
    obtain ⟨-, front, rest, stands, longest⟩ := tiled.token x mem
    rw [stands.start_eq] at lower
    rw [stands.stop_eq] at upper
    exact Token.utf8Size_of_mem longest.mem c
      (mem_of_byteLength (stands.line_eq.symm.trans h) lower upper)

/-- So have all characters in front of a place in the tiled part of a line. -/
theorem Tiled.ascii {line before after : List Char} {stop : Nat} {xs : List Lexeme}
    (tiled : Tiled line 0 stop xs) (h : line = before ++ after) (le : byteLength before ≤ stop) :
    ∀ c ∈ before, c.utf8Size = 1 := by
  intro c mem
  obtain ⟨front, rest, rfl⟩ := List.append_of_mem mem
  have pos := c.utf8Size_pos
  rw [byteLength_append, byteLength_cons] at le
  have split : line = front ++ c :: (rest ++ after) := by
    rw [h, List.append_assoc, List.cons_append]
  exact tiled.utf8Size_eq_one split (Nat.zero_le _) (by omega)

/-! ### Diagnostics -/

/-- What is behind the place between `before` and `after` is what the diagnostic is about: the
character that starts no token, a token of the line, or nothing. -/
def Diagnostic.Marks (d : Diagnostic) (before after : List Char) : Prop :=
  match d.failure.place with
  | .character => ∃ c rest, after = c :: rest ∧
      d.failure = .parsing ⟨.unexpectedCharacter (String.singleton c), d.column, []⟩ ∧
      ∀ (token : Token) (front : List Char), front <+: after → front ∉ token.pattern
  | .token => ∃ xs x rest, scan d.line = .ok xs ∧ x ∈ xs ∧ x.Stands d.line.toList before rest
  | .lineEnd => after = []

/-- The diagnostic points at the place in its line between `before` and `after`.  In front of the
place there is only ASCII, so that its column counts bytes and characters alike. -/
structure Diagnostic.PointsAt (d : Diagnostic) (before after : List Char) : Prop where
  line_eq : d.line.toList = before ++ after
  ascii : ∀ c ∈ before, c.toNat < 128
  column_eq : d.column = byteLength before + 1
  length_eq : before.length = byteLength before
  marks : d.Marks before after

namespace Diagnostic.PointsAt

variable {d : Diagnostic} {before after : List Char}

theorem mk_of_utf8Size (line_eq : d.line.toList = before ++ after)
    (one : ∀ c ∈ before, c.utf8Size = 1) (column_eq : d.column = byteLength before + 1)
    (marks : d.Marks before after) : d.PointsAt before after where
  line_eq := line_eq
  ascii c mem := by
    have le := UInt32.le_iff_toNat_le.mp (Char.utf8Size_eq_one_iff.mp (one c mem))
    exact Nat.lt_succ_of_le le
  column_eq := column_eq
  length_eq := (byteLength_eq_length one).symm
  marks := marks

variable (h : d.PointsAt before after)
include h

theorem utf8ByteSize_eq : d.line.utf8ByteSize = byteLength before + byteLength after := by
  rw [← byteLength_toList, h.line_eq, byteLength_append]

/-- Only the fault of a line that ends too early lies behind it. -/
theorem column_eq_iff : d.column = d.line.utf8ByteSize + 1 ↔ d.failure.place = .lineEnd := by
  have marks := h.marks
  have size := h.utf8ByteSize_eq
  have column := h.column_eq
  unfold Marks at marks
  split at marks
  · rename_i character
    obtain ⟨c, rest, rfl, -⟩ := marks
    have pos := c.utf8Size_pos
    rw [byteLength_cons] at size
    simp only [character, reduceCtorEq, iff_false]
    omega
  · rename_i token
    obtain ⟨xs, x, rest, scanned, mem, stands⟩ := marks
    have bounds := (tiled_of_scan scanned).bounds x mem
    rw [stands.start_eq] at bounds
    simp only [token, reduceCtorEq, iff_false]
    omega
  · rename_i lineEnd
    obtain rfl := marks
    simp only [lineEnd, iff_true, column, size]
    rfl

/-- There is a blank, or a tab, for each character in front of the place, and a caret. -/
theorem caretChars_eq : d.caretChars = before.map blankFor ++ ['^'] := by
  rw [caretChars, h.line_eq, h.column_eq, Nat.add_sub_cancel, ← h.length_eq, List.take_left]

theorem length_before : before.length = d.column - 1 := by
  rw [h.length_eq, h.column_eq, Nat.add_sub_cancel]

theorem length_caretChars : d.caretChars.length = d.column := by
  have column := h.column_eq
  rw [h.caretChars_eq, List.length_append, List.length_map, h.length_before, List.length_singleton]
  omega

/-- Under a tab there is a tab, and a space under anything else. -/
theorem getElem?_caretChars {i : Nat} (hi : i < d.column - 1) :
    d.caretChars[i]? = some (if d.line.toList[i]? = some '\t' then '\t' else ' ') := by
  have lt : i < before.length := h.length_before ▸ hi
  have lt_map : i < (before.map blankFor).length := by rwa [List.length_map]
  rw [h.caretChars_eq, h.line_eq, List.getElem?_append_left lt_map, List.getElem?_append_left lt,
    List.getElem?_map, List.getElem?_eq_getElem lt]
  simp only [Option.map_some, blankFor, Option.some.injEq]

/-- The caret stands under the place. -/
theorem getElem?_caretChars_column : d.caretChars[d.column - 1]? = some '^' := by
  have length : (before.map blankFor).length = d.column - 1 := by
    rw [List.length_map, h.length_before]
  rw [h.caretChars_eq, ← length, List.getElem?_concat_length]

end Diagnostic.PointsAt

section

variable {line : String} {xs : List Lexeme} {failure : Failure}

/-- A diagnostic whose line cannot be scanned points at the character that starts no token, and
names no other column. -/
theorem pointsAt_of_stuck {e : ParseError} (h : scan line = .error e) :
    ∃ before after, Diagnostic.PointsAt ⟨line, .parsing e⟩ before after ∧
      (Failure.parsing e).columns = [byteLength before + 1] := by
  obtain ⟨before, c, after, xs, split, rfl, tiled, stuck⟩ := exists_stuck_of_scan h
  exact ⟨before, c :: after, .mk_of_utf8Size split (tiled.ascii split (Nat.le_refl _)) rfl
    ⟨c, after, rfl, rfl, stuck⟩, rfl⟩

variable (scanned : scan line = .ok xs)
  (within : failure.Within (columnsOf xs) (line.utf8ByteSize + 1))
include scanned within

/-- A diagnostic of the lexemes of a line points at one of them, or behind the line. -/
theorem pointsAt_of_within :
    ∃ before after, Diagnostic.PointsAt ⟨line, failure⟩ before after := by
  have tiled := tiled_of_scan scanned
  have place := within.place
  split at place
  · exact place.elim
  · rename_i token
    obtain ⟨x, mem, column⟩ := List.mem_map.mp place
    obtain ⟨-, before, after, stands, -⟩ := tiled.token x mem
    have bounds := tiled.bounds x mem
    rw [stands.start_eq] at bounds
    refine ⟨before, x.token.text.toList ++ after, .mk_of_utf8Size stands.line_eq
      (tiled.ascii stands.line_eq (by omega)) ?_ ?_⟩
    · rw [Diagnostic.column, ← column, Lexeme.column, Span.column, stands.start_eq]
    · rw [Diagnostic.Marks, token]
      exact ⟨xs, x, after, scanned, mem, stands⟩
  · rename_i lineEnd
    have split : line.toList = line.toList ++ [] := (List.append_nil _).symm
    refine ⟨line.toList, [], .mk_of_utf8Size split
      (tiled.ascii split (Nat.le_of_eq (byteLength_toList line))) ?_ ?_⟩
    · rw [byteLength_toList]
      exact place
    · rw [Diagnostic.Marks, lineEnd]

theorem columns_le_of_within :
    ∀ column ∈ failure.columns, 1 ≤ column ∧ column ≤ line.utf8ByteSize + 1 := by
  intro column mem
  rcases List.mem_cons.mp (within.sub mem) with rfl | mem
  · exact ⟨Nat.le_add_left _ _, Nat.le_refl _⟩
  · obtain ⟨x, lexeme, rfl⟩ := List.mem_map.mp mem
    have bounds := (tiled_of_scan scanned).bounds x lexeme
    rw [Lexeme.column, Span.column]
    omega

end

/-- What is wrong with a line lies at a place in it, and names columns of it. -/
theorem exists_pointsAt {limits : Limits} {line : String} {failure : Failure}
    (h : evaluateLine limits line = .error failure) :
    (∃ before after, Diagnostic.PointsAt ⟨line, failure⟩ before after) ∧
      ∀ column ∈ failure.columns, 1 ≤ column ∧ column ≤ line.utf8ByteSize + 1 := by
  rw [evaluateLine] at h
  split at h
  · rename_i e stopped
    cases h
    obtain ⟨before, after, points, columns⟩ := pointsAt_of_stuck stopped
    refine ⟨⟨before, after, points⟩, fun column mem => ?_⟩
    have size : line.utf8ByteSize = byteLength before + byteLength after := points.utf8ByteSize_eq
    rw [columns, List.mem_singleton] at mem
    omega
  · rename_i xs scanned
    have within := evaluateLexemes_error_within h
    exact ⟨pointsAt_of_within scanned within, columns_le_of_within scanned within⟩

/-- **Every diagnostic points into its line**, or behind it if the line ends too early.  In front of
the place there is only ASCII, and it is that of a token or of a character that starts none; the
open rules and groups that a diagnostic names started in the line, too; and the line below has a
caret right under the place and nothing but spaces in front of it, or tabs where the line has
tabs. -/
theorem answerLine_points {limits : Limits} {text : String} {d : Diagnostic}
    (h : answerLine limits text = .error d) :
    d.line = trimLineEnd text ∧ 1 ≤ d.column ∧ d.column ≤ d.line.utf8ByteSize + 1 ∧
      (d.column = d.line.utf8ByteSize + 1 ↔ d.failure.place = .lineEnd) ∧
      (∀ column ∈ d.failure.columns, 1 ≤ column ∧ column ≤ d.line.utf8ByteSize + 1) ∧
      (∃ before after, d.PointsAt before after) ∧ d.caretChars.length = d.column ∧
      (∀ i < d.column - 1,
        d.caretChars[i]? = some (if d.line.toList[i]? = some '\t' then '\t' else ' ')) ∧
      d.caretChars[d.column - 1]? = some '^' := by
  rw [answerLine_eq] at h
  split at h
  · rename_i failure failed
    obtain rfl := Except.error.inj h
    obtain ⟨⟨before, after, points⟩, named⟩ := exists_pointsAt failed
    have size := points.utf8ByteSize_eq
    have column := points.column_eq
    exact ⟨rfl, by omega, by omega, points.column_eq_iff, named, ⟨before, after, points⟩,
      points.length_caretChars, fun _ => points.getElem?_caretChars,
      points.getElem?_caretChars_column⟩
  · cases h

/-- A group that is not closed in front of a number, in a line with a tab. -/
def unclosedSum : Diagnostic := ⟨"(1\t+ (2 3", .parsing ⟨.unclosedGroup (some "3") 6, 9,
  [⟨"primary", 6⟩, ⟨"base", 6⟩, ⟨"factor", 6⟩, ⟨"term", 6⟩, ⟨"expr", 2⟩,
    ⟨"primary", 1⟩, ⟨"base", 1⟩, ⟨"factor", 1⟩, ⟨"term", 1⟩, ⟨"expr", 1⟩]⟩⟩

/-- The caret stands under the number, behind a tab under the tab of the line. -/
theorem answerLine_points_unclosedSum :
    answerLine .standard "(1\t+ (2 3\r\n" = .error unclosedSum ∧
      unclosedSum.line = trimLineEnd "(1\t+ (2 3\r\n" ∧ unclosedSum.column = 9 ∧
      unclosedSum.line.utf8ByteSize = 9 ∧ unclosedSum.failure.place = .token ∧
      (∀ column ∈ unclosedSum.failure.columns, 1 ≤ column ∧ column ≤ 10) ∧
      (∃ before after, unclosedSum.PointsAt before after) ∧
      unclosedSum.caretChars = [' ', ' ', '\t', ' ', ' ', ' ', ' ', ' ', '^'] ∧
      unclosedSum.caretChars.length = 9 ∧
      (∀ i < 8, unclosedSum.caretChars[i]?
        = some (if unclosedSum.line.toList[i]? = some '\t' then '\t' else ' ')) ∧
      unclosedSum.caretChars[8]? = some '^' := by
  have fault : answerLine .standard "(1\t+ (2 3\r\n" = .error unclosedSum := by decide
  obtain ⟨line, -, -, -, columns, points, length, blanks, caret⟩ := answerLine_points fault
  exact ⟨fault, line, rfl, by decide, rfl, columns, points, by decide, length, blanks, caret⟩

end Calculator
