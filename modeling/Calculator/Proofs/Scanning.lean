import Mathlib.Tactic.ByContra
import Calculator.Token.Scan

/-!
# Tokens — scanning piece by piece

A line may be cut in front of a character that goes on with no token: what is scanned is then the
tokens of the first part and those of the second.

* `scan_induction`: the shape of all proofs about the scanner: it passes a blank, reads a token, or
  stops.
* `scanFrom_append`: **scanning is local**: the two parts of a line are scanned apart.
* `scanFrom_append_blanks`: blanks behind a line do not count.
* `scanFrom_tokens`: the tokens of a text do not depend on where it stands.
* `head_scanFrom`: a numeral has no sign.
* `scanFrom_text`: a token is read back from its text.
* `Scans`: a text is scanned as tokens, wherever it stands; `scans_intercalate`: as texts of tokens
  with blanks between them are.
-/

namespace Calculator

/-- The text starts with nothing that goes on with a token in front of it. -/
def Breaks (post : List Char) : Prop :=
  ∀ c ∈ post.head?, c.isDigit = false ∧ c ≠ ',' ∧ c ≠ '.' ∧ c ≠ '*'

theorem breaks_nil : Breaks [] := by rintro _ ⟨⟩

theorem breaks_of_isBlank {c : Char} (h : isBlank c) (cs : List Char) : Breaks (c :: cs) := by
  rintro _ ⟨⟩
  simp only [isBlank, Bool.or_eq_true, decide_eq_true_eq] at h
  rcases h with (((rfl | rfl) | rfl) | rfl) | rfl <;> decide

/-! ### Numerals in front of a break -/

theorem digitRun_append {post : List Char} (h : Breaks post) (cs : List Char) :
    digitRun (cs ++ post) = digitRun cs := by
  induction cs with
  | nil =>
      cases post with
      | nil => rfl
      | cons c post => simp [digitRun, (h c rfl).1]
  | cons d cs ih =>
      rcases hd : d.isDigit with - | -
      · simp [digitRun, hd]
      · simpa [digitRun, hd] using ih

/-- A group starts with a separator and three digits. -/
theorem groupsLength_ne_zero {cs : List Char} (h : groupsLength cs ≠ 0) :
    ∃ a b c rest, cs = ',' :: a :: b :: c :: rest ∧ a.isDigit ∧ b.isDigit ∧ c.isDigit := by
  unfold groupsLength at h
  split at h
  · split at h
    · rename_i a b c rest digits
      simp only [Bool.and_eq_true] at digits
      exact ⟨a, b, c, rest, rfl, digits.1.1, digits.1.2, digits.2⟩
    · exact absurd rfl h
  · exact absurd rfl h

/-- No group is completed behind the break. -/
theorem groupsLength_append {post : List Char} (h : Breaks post) (cs : List Char) :
    groupsLength (cs ++ post) = groupsLength cs := by
  fun_induction groupsLength cs with
  | case1 a b c rest digits ih => simp [groupsLength, digits, ih]
  | case2 a b c rest digits => simp [groupsLength, digits]
  | case3 cs none =>
      by_contra h0
      obtain ⟨a, b, c, rest, e, ha, hb, hc⟩ := groupsLength_ne_zero h0
      -- the group starts in `cs`, which is too short for it, and goes on in `post`
      rcases cs with - | ⟨c₀, - | ⟨c₁, - | ⟨c₂, - | ⟨c₃, cs⟩⟩⟩⟩
      · exact (h ',' (by simp_all)).2.1 rfl
      · simp_all [Breaks]
      · simp_all [Breaks]
      · simp_all [Breaks]
      · simp only [List.cons_append, List.cons.injEq] at e
        obtain ⟨rfl, rfl, rfl, rfl, -⟩ := e
        exact none _ _ _ _ rfl

theorem fractionLength_append {post : List Char} (h : Breaks post) (cs : List Char) :
    fractionLength (cs ++ post) = fractionLength cs := by
  rcases cs with - | ⟨c, cs⟩
  · rcases post with - | ⟨d, post⟩
    · rfl
    · rw [List.nil_append, fractionLength]
      · rfl
      · rintro rest ⟨rfl, -⟩
        exact (h '.' rfl).2.2.1 rfl
  · by_cases hc : c = '.'
    · subst hc
      simp only [List.cons_append, fractionLength, digitRun_append h]
    · simp [fractionLength, hc]

theorem wholeLength_append {post : List Char} (h : Breaks post) (cs : List Char) :
    wholeLength (cs ++ post) = wholeLength cs := by
  have drop : (cs ++ post).drop (digitRun cs) = cs.drop (digitRun cs) ++ post :=
    List.drop_append_of_le_length (digitRun_le cs)
  simp only [wholeLength, digitRun_append h, drop, groupsLength_append h]

theorem numeralLength_append {post : List Char} (h : Breaks post) (cs : List Char) :
    numeralLength (cs ++ post) = numeralLength cs := by
  have drop : (cs ++ post).drop (wholeLength cs) = cs.drop (wholeLength cs) ++ post :=
    List.drop_append_of_le_length (wholeLength_le cs)
  simp only [numeralLength, wholeLength_append h, drop, fractionLength_append h]

/-! ### Tokens in front of a break -/

theorem Token.read?_blank {c : Char} (h : isBlank c) (rest : List Char) :
    Token.read? c rest = some (.blank, (rest.takeWhile isBlank).length) := by
  unfold Token.read?
  rw [if_pos h]

/-- A token that is not a blank is not changed by what follows the break. -/
theorem Token.read?_append {c : Char} (hc : isBlank c = false) {post : List Char} (h : Breaks post)
    (rest : List Char) : Token.read? c (rest ++ post) = Token.read? c rest := by
  have star : (rest ++ post).head? = some '*' ↔ rest.head? = some '*' := by
    rcases rest with - | ⟨d, rest⟩
    · refine ⟨fun hd => absurd rfl (h '*' hd).2.2.2, ?_⟩
      rintro ⟨⟩
    · rfl
  have take : ∀ n, numeralLength (c :: rest) = n + 1 → (rest ++ post).take n = rest.take n := by
    intro n hn
    have := numeralLength_le (c :: rest)
    exact List.take_append_of_le_length (by simp only [List.length_cons] at this; omega)
  unfold Token.read?
  simp only [hc, Bool.false_eq_true, if_false, ← List.cons_append, numeralLength_append h, star]
  split
  all_goals try rfl
  cases hn : numeralLength (c :: rest) with
  | zero => rfl
  | succ n => simp only [take n hn]

/-- A token that is not a blank is the text that was read. -/
theorem Token.text_read? {c : Char} (hc : isBlank c = false) {rest : List Char} {token : Token}
    {more : Nat} (h : Token.read? c rest = some (token, more)) :
    token ≠ .blank ∧ token.text.toList = c :: rest.take more := by
  unfold Token.read? at h
  rw [if_neg (by simp [hc])] at h
  split at h
  case h_6 =>
    split at h
    · rename_i star
      cases h
      rcases rest with - | ⟨d, rest⟩ <;> simp_all [Token.text]
    · cases h
      exact ⟨nofun, rfl⟩
  case h_7 =>
    split at h
    · cases h
    · cases h
      exact ⟨nofun, by simp [Token.text]⟩
  all_goals
    cases h
    exact ⟨nofun, rfl⟩

/-! ### Steps of the scanner -/

/-- Behind a run of blanks, scanning goes on as behind its first blank. -/
theorem scanFrom_blank {c : Char} (h : isBlank c) (rest : List Char) (offset : Nat) :
    scanFrom (c :: rest) offset 0 [] = scanFrom rest (offset + 1) 0 [] := by
  have skip (cs : List Char) (o : Nat) : scanFrom cs o (cs.takeWhile isBlank).length []
      = scanFrom (cs.drop (cs.takeWhile isBlank).length) (o + (cs.takeWhile isBlank).length) 0 [] :=
    scanFrom_skip _ _ _ _ (List.takeWhile_prefix _).length_le
  simp only [scanFrom, Token.read?_blank h, keepToken, skip]
  rcases rest with - | ⟨d, rest⟩
  · rfl
  · by_cases hd : isBlank d
    · simp only [scanFrom, Token.read?_blank hd, keepToken, skip, List.takeWhile_cons_of_pos hd,
        List.length_cons, List.drop_succ_cons]
      congr 1
      omega
    · simp only [List.takeWhile_cons_of_neg hd, List.length_nil, List.drop_zero, Nat.add_zero]

theorem scanFrom_none {c : Char} {rest : List Char} (h : Token.read? c rest = none)
    (offset : Nat) : scanFrom (c :: rest) offset 0 []
      = .error ⟨.unexpectedCharacter (String.singleton c), offset + 1, []⟩ := by
  rw [scanFrom, h]

/-- A token is put in front of what is scanned behind it. -/
theorem scanFrom_token {c : Char} (hc : isBlank c = false) {rest : List Char} {token : Token}
    {more : Nat} (h : Token.read? c rest = some (token, more)) (offset : Nat) :
    scanFrom (c :: rest) offset 0 []
      = (scanFrom (rest.drop more) (offset + 1 + more) 0 []).map
          (⟨token, offset, offset + 1 + more⟩ :: ·) := by
  have kept : keepToken [] token ⟨offset, offset + 1 + more⟩
      = [⟨token, offset, offset + 1 + more⟩] := by
    cases token with
    | blank => exact absurd rfl (Token.text_read? hc h).1
    | _ => rfl
  simp only [scanFrom, h, kept]
  rw [scanFrom_skip _ _ _ _ (Token.read?_le h), scanFrom_found]
  rfl

/-- The scanner passes a blank, reads a token, or stops at a character that starts none. -/
theorem scan_induction {P : List Char → Prop} (nil : P [])
    (blank : ∀ c rest, isBlank c → P rest → P (c :: rest))
    (token : ∀ c rest token more, isBlank c = false → Token.read? c rest = some (token, more) →
      P (rest.drop more) → P (c :: rest))
    (stuck : ∀ c rest, isBlank c = false → Token.read? c rest = none → P (c :: rest))
    (cs : List Char) : P cs := by
  induction h : cs.length using Nat.strongRecOn generalizing cs with
  | ind n ih =>
      subst h
      rcases cs with - | ⟨c, rest⟩
      · exact nil
      · rcases hc : isBlank c with - | -
        · rcases hr : Token.read? c rest with - | ⟨t, more⟩
          · exact stuck c rest hc hr
          · refine token c rest t more hc hr (ih _ ?_ _ rfl)
            rw [List.length_drop, List.length_cons]
            omega
        · exact blank c rest hc (ih _ (Nat.lt_succ_self _) _ rfl)

/-! ### Two parts of a line -/

/-- **Scanning is local.**  In front of a break, a line is scanned as if it ended there, and what
follows as if it started there. -/
theorem scanFrom_append (cs : List Char) {post : List Char} (h : Breaks post) (offset : Nat) :
    scanFrom (cs ++ post) offset 0 []
      = (scanFrom cs offset 0 []).bind fun xs =>
          (scanFrom post (offset + cs.length) 0 []).map (xs ++ ·) := by
  induction cs using scan_induction generalizing offset with
  | nil =>
      rw [List.nil_append, scanFrom_nil]
      cases scanFrom post offset 0 [] <;> rfl
  | blank c rest hc ih =>
      have o : offset + 1 + rest.length = offset + (c :: rest).length := by
        rw [List.length_cons]; omega
      rw [List.cons_append, scanFrom_blank hc, scanFrom_blank hc, ih, o]
  | token c rest token more hc hr ih =>
      have le := Token.read?_le hr
      have o : offset + 1 + more + (rest.drop more).length = offset + (c :: rest).length := by
        rw [List.length_drop, List.length_cons]; omega
      have hr' := (Token.read?_append hc h rest).trans hr
      rw [List.cons_append, scanFrom_token hc hr', List.drop_append_of_le_length le, ih, o,
        scanFrom_token hc hr]
      cases scanFrom (rest.drop more) (offset + 1 + more) 0 [] with
      | error e => rfl
      | ok xs => cases scanFrom post (offset + (c :: rest).length) 0 [] <;> rfl
  | stuck c rest hc hr =>
      have hr' := (Token.read?_append hc h rest).trans hr
      rw [List.cons_append, scanFrom_none hr', scanFrom_none hr]
      rfl

/-- Blanks alone hold no tokens. -/
theorem scanFrom_blanks {cs : List Char} (h : ∀ c ∈ cs, isBlank c) (offset : Nat) :
    scanFrom cs offset 0 [] = .ok [] := by
  induction cs generalizing offset with
  | nil => rfl
  | cons c cs ih =>
      rw [scanFrom_blank (h c (by simp))]
      exact ih (fun d hd => h d (List.mem_cons_of_mem c hd)) _

/-- Blanks behind a line do not count. -/
theorem scanFrom_append_blanks (cs : List Char) {tail : List Char} (h : ∀ c ∈ tail, isBlank c)
    (offset : Nat) : scanFrom (cs ++ tail) offset 0 [] = scanFrom cs offset 0 [] := by
  have hb : Breaks tail := by
    rcases tail with - | ⟨c, tail⟩
    · exact breaks_nil
    · exact breaks_of_isBlank (h c (by simp)) tail
  rw [scanFrom_append cs hb, scanFrom_blanks h]
  cases scanFrom cs offset 0 [] with
  | error e => rfl
  | ok xs => exact congrArg Except.ok (List.append_nil xs)

/-! ### Tokens wherever they stand -/

/-- The tokens of a text, without their places. -/
def tokensOf (xs : List Lexeme) : List Token := xs.map Lexeme.token

/-- A text has the same tokens wherever it stands. -/
theorem scanFrom_tokens {cs : List Char} {offset : Nat} {xs : List Lexeme}
    (h : scanFrom cs offset 0 [] = .ok xs) (offset' : Nat) :
    ∃ ys, scanFrom cs offset' 0 [] = .ok ys ∧ tokensOf ys = tokensOf xs := by
  induction cs using scan_induction generalizing offset offset' xs with
  | nil => cases h; exact ⟨[], rfl, rfl⟩
  | blank c rest hc ih =>
      rw [scanFrom_blank hc] at h
      rw [scanFrom_blank hc]
      exact ih h _
  | token c rest token more hc hr ih =>
      rw [scanFrom_token hc hr] at h
      rw [scanFrom_token hc hr]
      cases hs : scanFrom (rest.drop more) (offset + 1 + more) 0 [] with
      | error e => rw [hs] at h; cases h
      | ok zs =>
          rw [hs] at h
          cases h
          obtain ⟨ys, hy, e⟩ := ih hs (offset' + 1 + more)
          refine ⟨⟨token, _, _⟩ :: ys, by rw [hy]; rfl, ?_⟩
          exact congrArg (token :: ·) e
  | stuck c rest hc hr =>
      rw [scanFrom_none hr] at h
      cases h

/-! ### Tokens from their texts -/

/-- The text is one numeral, separators included. -/
def IsNumeral (text : String) : Prop :=
  text.toList ≠ [] ∧ numeralLength text.toList = text.toList.length

/-- The token can be read: it is not a blank, and a numeral is written as one. -/
def Token.Readable : Token → Prop
  | .number text => IsNumeral text
  | .blank => False
  | _ => True

/-- A numeral starts with a digit or a point. -/
theorem head_numeral {c : Char} {rest : List Char} (h : numeralLength (c :: rest) ≠ 0) :
    c.isDigit ∨ c = '.' := by
  by_contra none
  simp only [not_or, Bool.not_eq_true] at none
  have run : digitRun (c :: rest) = 0 := by simp [digitRun, none.1]
  exact h (by simp [numeralLength, wholeLength, run, fractionLength, none.2])

/-- Where a numeral is read, there is one. -/
theorem Token.numeralLength_read? {c : Char} {rest : List Char} {text : String} {more : Nat}
    (h : Token.read? c rest = some (.number text, more)) : numeralLength (c :: rest) ≠ 0 := by
  intro zero
  unfold Token.read? at h
  rw [zero] at h
  split at h
  · cases h
  · split at h
    case h_6 => split at h <;> cases h
    all_goals cases h

/-- A numeral that was read starts with a digit or a point. -/
theorem Token.head_read? {c : Char} {rest : List Char} {text : String} {more : Nat}
    (h : Token.read? c rest = some (.number text, more)) : c.isDigit ∨ c = '.' :=
  head_numeral (Token.numeralLength_read? h)

/-- The numerals of a line start with a digit or a point, never with a sign. -/
theorem head_scanFrom {cs : List Char} {offset : Nat} {xs : List Lexeme}
    (h : scanFrom cs offset 0 [] = .ok xs) {text : String} {span : Span}
    (mem : ⟨.number text, span⟩ ∈ xs) :
    ∃ c rest, text.toList = c :: rest ∧ (c.isDigit ∨ c = '.') := by
  induction cs using scan_induction generalizing offset xs with
  | nil =>
      cases h
      cases mem
  | blank c rest hc ih =>
      rw [scanFrom_blank hc] at h
      exact ih h mem
  | token c rest token more hc hr ih =>
      rw [scanFrom_token hc hr] at h
      cases hs : scanFrom (rest.drop more) (offset + 1 + more) 0 [] with
      | error e => rw [hs] at h; cases h
      | ok zs =>
          rw [hs] at h
          cases h
          rcases List.mem_cons.mp mem with e | mem
          · cases e
            exact ⟨c, _, (Token.text_read? hc hr).2, Token.head_read? hr⟩
          · exact ih hs mem
  | stuck c rest hc hr =>
      rw [scanFrom_none hr] at h
      cases h

theorem isBlank_numeral {c : Char} {rest : List Char} (h : numeralLength (c :: rest) ≠ 0) :
    isBlank c = false := by
  rw [Bool.eq_false_iff]
  intro hb
  simp only [isBlank, Bool.or_eq_true, decide_eq_true_eq] at hb
  rcases hb with (((rfl | rfl) | rfl) | rfl) | rfl <;> exact absurd (head_numeral h) (by decide)

theorem Token.read?_numeral {c : Char} {rest : List Char} {n : Nat}
    (h : numeralLength (c :: rest) = n + 1) :
    Token.read? c rest = some (.number (String.ofList (c :: rest.take n)), n) := by
  have h0 : numeralLength (c :: rest) ≠ 0 := by omega
  have head := head_numeral h0
  unfold Token.read?
  rw [if_neg (by simp [isBlank_numeral h0])]
  split
  case h_7 => rw [h]
  all_goals exact absurd head (by decide)

/-- A token is read back from its text. -/
theorem scanFrom_text {t : Token} (h : t.Readable) (offset : Nat) :
    scanFrom t.text.toList offset 0 [] = .ok [⟨t, offset, offset + t.text.toList.length⟩] := by
  cases t with
  | number text =>
      obtain ⟨ne, numeral⟩ := h
      show scanFrom text.toList _ _ _ = .ok [⟨_, _, offset + text.toList.length⟩]
      rcases hcs : text.toList with - | ⟨c, rest⟩
      · exact absurd hcs ne
      · rw [hcs, List.length_cons] at numeral
        have read := Token.read?_numeral numeral
        have h0 : numeralLength (c :: rest) ≠ 0 := by omega
        rw [scanFrom_token (isBlank_numeral h0) read, List.drop_length, List.take_length,
          ← hcs, String.ofList_toList, hcs]
        simp only [scanFrom_nil, Except.map, List.length_cons, List.reverse_nil]
        congr 4
        omega
  | blank => exact h.elim
  | _ => rfl

/-! ### Texts and their tokens -/

/-- The text is scanned as the tokens, wherever it stands. -/
def Scans (cs : List Char) (ts : List Token) : Prop :=
  ∀ offset, ∃ xs, scanFrom cs offset 0 [] = .ok xs ∧ tokensOf xs = ts

namespace Scans

variable {cs post : List Char} {ts us : List Token} {c : Char} {t : Token}

theorem nil : Scans [] [] := fun offset => ⟨[], scanFrom_nil offset 0 [], rfl⟩

theorem append (h : Scans cs ts) (breaks : Breaks post) (h' : Scans post us) :
    Scans (cs ++ post) (ts ++ us) := by
  intro offset
  obtain ⟨xs, hx, rfl⟩ := h offset
  obtain ⟨ys, hy, rfl⟩ := h' (offset + cs.length)
  refine ⟨xs ++ ys, ?_, List.map_append⟩
  rw [scanFrom_append cs breaks, hx]
  simp only [Except.bind, hy, Except.map]

theorem cons_blank (hc : isBlank c) (h : Scans cs ts) : Scans (c :: cs) ts := by
  intro offset
  rw [scanFrom_blank hc]
  exact h (offset + 1)

/-- A token of one character that goes on with no other. -/
theorem cons_sign (hc : isBlank c = false) (read : ∀ rest, Token.read? c rest = some (t, 0))
    (h : Scans cs ts) : Scans (c :: cs) (t :: ts) := by
  intro offset
  obtain ⟨xs, hx, rfl⟩ := h (offset + 1)
  refine ⟨⟨t, offset, offset + 1⟩ :: xs, ?_, rfl⟩
  rw [scanFrom_token hc (read cs), List.drop_zero, Nat.add_zero, hx]
  rfl

theorem text (h : t.Readable) : Scans t.text.toList [t] :=
  fun offset => ⟨_, scanFrom_text h offset, rfl⟩

/-- A text up to the parenthesis that closes its group. -/
theorem close (h : Scans cs ts) : Scans (cs ++ [')']) (ts ++ [.rparen]) := by
  refine h.append ?_ (nil.cons_sign rfl fun _ => rfl)
  rintro _ ⟨⟩
  decide

end Scans

/-- Tokens with single blanks between them are read back. -/
theorem scans_intercalate {ts : List Token} (h : ∀ t ∈ ts, t.Readable) :
    Scans (String.intercalate " " (ts.map Token.text)).toList ts := by
  induction ts with
  | nil => exact .nil
  | cons t ts ih =>
      have first := Scans.text (h t (by simp))
      rcases ts with - | ⟨u, ts⟩
      · simpa using first
      · have rest := ih fun v hv => h v (List.mem_cons_of_mem t hv)
        rw [List.map_cons, List.map_cons, String.intercalate_cons_cons, String.toList_append,
          String.toList_append, List.append_assoc, ← List.map_cons]
        exact first.append (breaks_of_isBlank rfl _) (rest.cons_blank rfl)

end Calculator
