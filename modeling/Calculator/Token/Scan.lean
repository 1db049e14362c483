import Calculator.ParseError
import Calculator.Token

/-!
# Tokens — scanning a line

A line is cut into the longest tokens that it starts with, one after the other; blanks are
dropped.  Every token is made of ASCII characters, so that characters and bytes agree up to the
place where scanning stops.

* `numeralLength_le`, `Token.read?_le`: no token reaches past its line.
* `scanFrom_skip`: the characters of the token read last are passed over.
* `scanFrom_found`: what was found before does not change what is found next.
-/

namespace Calculator

/-! ### Numerals -/

/-- The number of digits at the front. -/
def digitRun (cs : List Char) : Nat := (cs.takeWhile Char.isDigit).length

/-- The length of the groups of a separator and three digits at the front. -/
def groupsLength : List Char → Nat
  | ',' :: a :: b :: c :: rest =>
      if a.isDigit && b.isDigit && c.isDigit then 4 + groupsLength rest else 0
  | _ => 0

/-- The length of the point and the digits at the front; a point needs a digit after it. -/
def fractionLength : List Char → Nat
  | '.' :: rest => if digitRun rest = 0 then 0 else 1 + digitRun rest
  | _ => 0

/-- The length of the digits and separated groups at the front.  Groups follow one to three
digits. -/
def wholeLength (cs : List Char) : Nat :=
  let digits := digitRun cs
  if 1 ≤ digits ∧ digits ≤ 3 then digits + groupsLength (cs.drop digits) else digits

/-- The length of the numeral at the front, zero if there is none. -/
def numeralLength (cs : List Char) : Nat :=
  wholeLength cs + fractionLength (cs.drop (wholeLength cs))

/-! ### Tokens -/

/-- The characters that may stand between tokens. -/
def isBlank (c : Char) : Bool :=
  c = ' ' || c = '\t' || c = '\x0c' || c = '\r' || c = '\n'

/-- The longest token at the front of `c :: rest`, with the number of characters of `rest` that
belong to it. -/
def Token.read? (c : Char) (rest : List Char) : Option (Token × Nat) :=
  if isBlank c then some (.blank, (rest.takeWhile isBlank).length)
  else match c with
    | '+' => some (.plus, 0)
    | '-' => some (.minus, 0)
    | '/' => some (.slash, 0)
    | '(' => some (.lparen, 0)
    | ')' => some (.rparen, 0)
    | '*' => if rest.head? = some '*' then some (.doubleStar, 1) else some (.star, 0)
    | _ =>
      match numeralLength (c :: rest) with
      | 0 => none
      | n + 1 => some (.number (String.ofList (c :: rest.take n)), n)

/-- Adds a token to those found, latest first; blanks are dropped. -/
def keepToken (found : List Lexeme) (token : Token) (span : Span) : List Lexeme :=
  match token with
  | .blank => found
  | _ => ⟨token, span⟩ :: found

/-- Scans on from byte `offset`, after the tokens `found`, latest first; the next `skip`
characters belong to the token read last. -/
def scanFrom : List Char → (offset skip : Nat) → List Lexeme → Except ParseError (List Lexeme)
  | [], _, _, found => .ok found.reverse
  | _ :: rest, offset, skip + 1, found => scanFrom rest (offset + 1) skip found
  | c :: rest, offset, 0, found =>
    match Token.read? c rest with
    | none => .error ⟨.unexpectedCharacter (String.singleton c), offset + 1, []⟩
    | some (token, more) =>
      scanFrom rest (offset + 1) more (keepToken found token ⟨offset, offset + 1 + more⟩)

/-- The tokens of a line.  Fails at the first character at which no token starts. -/
def scan (line : String) : Except ParseError (List Lexeme) := scanFrom line.toList 0 0 []

/-! ### Lengths -/

theorem digitRun_le (cs : List Char) : digitRun cs ≤ cs.length :=
  (List.takeWhile_prefix _).length_le

theorem groupsLength_le (cs : List Char) : groupsLength cs ≤ cs.length := by
  fun_induction groupsLength cs with
  | case1 a b c rest h ih => simp only [List.length_cons]; omega
  | case2 => exact Nat.zero_le _
  | case3 => exact Nat.zero_le _

theorem fractionLength_le (cs : List Char) : fractionLength cs ≤ cs.length := by
  unfold fractionLength
  split
  · split
    · exact Nat.zero_le _
    · rename_i rest _
      have := digitRun_le rest
      simp only [List.length_cons]; omega
  · exact Nat.zero_le _

theorem wholeLength_le (cs : List Char) : wholeLength cs ≤ cs.length := by
  have h := digitRun_le cs
  have g := groupsLength_le (cs.drop (digitRun cs))
  simp only [List.length_drop] at g
  unfold wholeLength
  dsimp only
  split <;> omega

theorem numeralLength_le (cs : List Char) : numeralLength cs ≤ cs.length := by
  have h := wholeLength_le cs
  have f := fractionLength_le (cs.drop (wholeLength cs))
  simp only [List.length_drop] at f
  unfold numeralLength
  omega

theorem Token.read?_le {c : Char} {rest : List Char} {token : Token} {more : Nat}
    (h : Token.read? c rest = some (token, more)) : more ≤ rest.length := by
  unfold Token.read? at h
  split at h
  · obtain ⟨-, rfl⟩ := Prod.mk.injEq _ _ _ _ ▸ Option.some.inj h
    exact (List.takeWhile_prefix _).length_le
  · split at h
    case h_6 =>
      split at h <;> obtain ⟨-, rfl⟩ := Prod.mk.injEq _ _ _ _ ▸ Option.some.inj h
      · cases rest with
        | nil => simp_all
        | cons d rest => simp
      · exact Nat.zero_le _
    case h_7 =>
      split at h
      · cases h
      · rename_i n hn
        obtain ⟨-, rfl⟩ := Prod.mk.injEq _ _ _ _ ▸ Option.some.inj h
        have := numeralLength_le (c :: rest)
        simp only [List.length_cons] at this
        omega
    all_goals
      obtain ⟨-, rfl⟩ := Prod.mk.injEq _ _ _ _ ▸ Option.some.inj h
      exact Nat.zero_le _

/-! ### Runs of the scanner -/

@[simp] theorem scanFrom_nil (offset skip : Nat) (found : List Lexeme) :
    scanFrom [] offset skip found = .ok found.reverse := by
  cases skip <;> rfl

/-- Characters that are skipped are dropped. -/
theorem scanFrom_skip (cs : List Char) (offset skip : Nat) (found : List Lexeme)
    (h : skip ≤ cs.length) :
    scanFrom cs offset skip found = scanFrom (cs.drop skip) (offset + skip) 0 found := by
  induction skip generalizing cs offset with
  | zero => rfl
  | succ skip ih =>
      cases cs with
      | nil => simp at h
      | cons c rest =>
          have h' : skip ≤ rest.length := by simpa using h
          simp only [scanFrom, List.drop_succ_cons]
          rw [ih rest (offset + 1) h']
          congr 1
          omega

/-- What was found before does not change what is found next. -/
theorem scanFrom_found (cs : List Char) (offset skip : Nat) (found : List Lexeme) :
    scanFrom cs offset skip found
      = (scanFrom cs offset skip []).map (found.reverse ++ ·) := by
  induction cs generalizing offset skip found with
  | nil => simp [Except.map]
  | cons c rest ih =>
      cases skip with
      | succ skip => simp only [scanFrom]; exact ih (offset + 1) skip found
      | zero =>
          simp only [scanFrom]
          cases h : Token.read? c rest with
          | none => simp [Except.map]
          | some p =>
              obtain ⟨token, more⟩ := p
              dsimp only
              rw [ih (offset + 1) more (keepToken found token _),
                ih (offset + 1) more (keepToken [] token _)]
              cases scanFrom rest (offset + 1) more [] with
              | error e => rfl
              | ok xs => cases token <;> simp [keepToken, Except.map]

end Calculator
