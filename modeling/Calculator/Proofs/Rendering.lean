import Calculator.Proofs.Grammar
import Calculator.Proofs.Literals

/-!
# Trees — reading the text of a tree

The text of a tree does not show the levels without operators, writes the chains of all levels
alike, and closes the parts of a chain all at once at its end.  Still nothing is lost in it.  It is
made of marks, none of which starts with another one, and each token of the tree is in one of them.

* `Mark.read?_append`: the first mark of a text is known from the text alone.
* `eq_of_charsOf_eq`: so marks that are written alike are the same.
* `Tree.toList_textWith`, `Tree.tokensIn_marks`: the text of a tree is that of its marks, and its
  marks hold its tokens.
* `Tree.balanced_textWith`: the brackets in it are balanced.
* `Tree.unplaced_eq_iff`: trees with the same tokens differ in places only.
* `text_unambiguous`: **the text of a tree is that of no other tokens**, whatever lines are parsed.
-/

namespace Calculator

/-! ### Marks -/

/-- A piece of the text of a tree. -/
inductive Mark where
  /-- A numeral, as written, with what stands around it. -/
  | numeral (text : String)
  | opening
  | closing
  /-- The start of a primary after a minus sign. -/
  | sign
  /-- The start of a chain with operators. -/
  | first
  /-- What stands in front of a continuation. -/
  | more
  /-- The start of a continuation. -/
  | operator (op : Operator)
  /-- The end of the last continuation. -/
  | last
  | brace
deriving DecidableEq, Repr

namespace Mark

/-- The mark as it is written. -/
def text : Mark → String
  | .numeral text => "\x7bnum: \"" ++ text ++ "\"\x7d"
  | .opening => "("
  | .closing => ")"
  | .sign => "\x7bneg: "
  | .first => "\x7bleft: "
  | .more => ", continuation: "
  | .operator op => "\x7bop: '" ++ op.symbol ++ "', right: "
  | .last => "nil"
  | .brace => "\x7d"

/-- The token in the mark. -/
def token? : Mark → Option Token
  | .numeral text => some (.number text)
  | .opening => some .lparen
  | .closing => some .rparen
  | .sign => some .minus
  | .operator op => some op.token
  | _ => none

/-- The mark at the front, and what is behind it. -/
def read? : List Char → Option (Mark × List Char)
  | '(' :: cs => some (.opening, cs)
  | ')' :: cs => some (.closing, cs)
  | ',' :: cs => some (.more, cs.drop 15)
  | 'n' :: cs => some (.last, cs.drop 2)
  | '\x7d' :: cs => some (.brace, cs)
  | '\x7b' :: 'n' :: 'u' :: 'm' :: ':' :: ' ' :: '"' :: cs =>
      some (.numeral (.ofList (cs.takeWhile (· ≠ '"'))), (cs.dropWhile (· ≠ '"')).drop 2)
  | '\x7b' :: 'n' :: cs => some (.sign, cs.drop 4)
  | '\x7b' :: 'l' :: cs => some (.first, cs.drop 5)
  | '\x7b' :: 'o' :: 'p' :: ':' :: ' ' :: '\'' :: '+' :: cs => some (.operator .add, cs.drop 10)
  | '\x7b' :: 'o' :: 'p' :: ':' :: ' ' :: '\'' :: '-' :: cs => some (.operator .sub, cs.drop 10)
  | '\x7b' :: 'o' :: 'p' :: ':' :: ' ' :: '\'' :: '/' :: cs => some (.operator .div, cs.drop 10)
  | '\x7b' :: 'o' :: 'p' :: ':' :: ' ' :: '\'' :: '*' :: '*' :: cs =>
      some (.operator .pow, cs.drop 10)
  | '\x7b' :: 'o' :: 'p' :: ':' :: ' ' :: '\'' :: '*' :: cs => some (.operator .mul, cs.drop 10)
  | _ => none

/-- No numeral in the mark holds the quote that ends it. -/
def Legible (m : Mark) : Prop := ∀ text, m = .numeral text → '"' ∉ text.toList

/-- **No mark starts with another one.**  The mark at the front of a text is known, whatever is
behind it. -/
theorem read?_append {m : Mark} (legible : m.Legible) (cs : List Char) :
    read? (m.text.toList ++ cs) = some (m, cs) := by
  cases m with
  | numeral text =>
      have outside : ∀ c ∈ text.toList, decide (c ≠ '"') = true := fun c mem =>
        decide_eq_true fun e => legible text rfl (e ▸ mem)
      have chars : (numeral text).text.toList ++ cs
          = '\x7b' :: 'n' :: 'u' :: 'm' :: ':' :: ' ' :: '"' :: (text.toList ++ '"' :: '\x7d' :: cs)
          := by
        simp [Mark.text, String.toList_append]
      rw [chars, read?, List.takeWhile_append_of_pos outside, List.dropWhile_append_of_pos outside]
      simp
  | operator op => cases op <;> rfl
  | _ => rfl

end Mark

/-- The characters of marks. -/
def charsOf (ms : List Mark) : List Char := ms.flatMap fun m => m.text.toList

@[simp] theorem charsOf_nil : charsOf [] = [] := rfl

@[simp] theorem charsOf_cons (m : Mark) (ms : List Mark) :
    charsOf (m :: ms) = m.text.toList ++ charsOf ms := rfl

@[simp] theorem charsOf_append (ms ms' : List Mark) :
    charsOf (ms ++ ms') = charsOf ms ++ charsOf ms' :=
  List.flatMap_append

/-- Marks that are written alike are the same. -/
theorem eq_of_charsOf_eq {ms ms' : List Mark} (legible : ∀ m ∈ ms, m.Legible)
    (legible' : ∀ m ∈ ms', m.Legible) (h : charsOf ms = charsOf ms') : ms = ms' := by
  induction ms generalizing ms' with
  | nil =>
      cases ms' with
      | nil => rfl
      | cons m' ms' =>
          have read := Mark.read?_append (legible' m' List.mem_cons_self) (charsOf ms')
          rw [← charsOf_cons, ← h] at read
          cases read
  | cons m ms ih =>
      obtain ⟨legible, behind⟩ := List.forall_mem_cons.mp legible
      have read := Mark.read?_append legible (charsOf ms)
      rw [← charsOf_cons, h] at read
      cases ms' with
      | nil => cases read
      | cons m' ms' =>
          obtain ⟨legible', behind'⟩ := List.forall_mem_cons.mp legible'
          rw [charsOf_cons, Mark.read?_append legible', Option.some.injEq, Prod.mk.injEq] at read
          obtain ⟨rfl, rest⟩ := read
          rw [ih behind behind' rest.symm]

/-- The tokens in marks. -/
def tokensIn (ms : List Mark) : List Token := ms.flatMap fun m => m.token?.toList

@[simp] theorem tokensIn_nil : tokensIn [] = [] := rfl

@[simp] theorem tokensIn_cons (m : Mark) (ms : List Mark) :
    tokensIn (m :: ms) = m.token?.toList ++ tokensIn ms := rfl

@[simp] theorem tokensIn_append (ms ms' : List Mark) :
    tokensIn (ms ++ ms') = tokensIn ms ++ tokensIn ms' :=
  List.flatMap_append

/-! ### The marks of a tree -/

namespace Tree

/-- The marks in the text of a tree, as `continuation`, the marks of what follows in its chain,
asks. -/
def marksWith {r : Rule} : Tree r → (continuation : Option (List Mark)) → List Mark
  | .number text _, _ => [.numeral text]
  | .group _ inner _, _ => .opening :: inner.marksWith none ++ [.closing]
  | .plain operand, _ => operand.marksWith none
  | .negated _ operand, _ => .sign :: operand.marksWith none ++ [.brace]
  | .head operand, none => operand.marksWith none
  | .head operand, some continuation =>
      .first :: operand.marksWith none ++ .more :: continuation ++ [.brace]
  | .link left op _ _ right, continuation =>
      left.marksWith (some (.operator op :: right.marksWith none
        ++ .more :: continuation.getD [.last] ++ [.brace]))

/-- The text of a tree is that of its marks. -/
theorem toList_textWith {r : Rule} (t : Tree r) (continuation : Option (List Mark)) :
    (t.textWith (continuation.map fun ms => .ofList (charsOf ms))).toList
      = charsOf (t.marksWith continuation) := by
  induction t generalizing continuation with
  | number text span =>
      rw [textWith, marksWith, charsOf_cons, charsOf_nil, List.append_nil, Mark.text]
  | group opening inner closing ih => simp [textWith, marksWith, ← ih, Mark.text]
  | plain operand ih => exact ih none
  | negated minus operand ih => simp [textWith, marksWith, ← ih, Mark.text]
  | head operand ih =>
      cases continuation with
      | none => exact ih none
      | some continuation => simp [textWith, marksWith, ← ih, Mark.text]
  | link left op binds sign right ihl ihr =>
      -- the continuation of the left chain, which starts with the operator
      have next : "\x7bop: '" ++ op.symbol ++ "', right: " ++ right.textWith none
            ++ ", continuation: "
            ++ (continuation.map fun ms => String.ofList (charsOf ms)).getD "nil" ++ "\x7d"
          = .ofList (charsOf (.operator op :: right.marksWith none
              ++ .more :: continuation.getD [.last] ++ [.brace])) := by
        rw [← String.toList_inj]
        cases continuation <;> simp [← ihr, Mark.text]
      rw [textWith, marksWith, ← ihl, Option.map_some, next]

theorem toList_text {r : Rule} (t : Tree r) : t.text.toList = charsOf (t.marksWith none) :=
  t.toList_textWith none

mutual

/-- The marks of a tree hold its tokens, in their order. -/
theorem tokensIn_marks {r : Rule} : (t : Tree r) →
    tokensIn (t.marksWith none) = tokensOf t.lexemes
  | .number text _ => rfl
  | .group _ inner _ => by
      simp [marksWith, lexemes, tokensIn_marks inner, Mark.token?, tokensOf]
  | .plain operand => tokensIn_marks operand
  | .negated _ operand => by
      simp [marksWith, lexemes, tokensIn_marks operand, Mark.token?, tokensOf]
  | .head operand => tokensIn_marks operand
  | .link left op _ _ right => by
      rw [marksWith, tokensIn_marksWith left]
      simp [lexemes, tokensIn_marks right, Mark.token?, tokensOf]

theorem tokensIn_marksWith {l : Level} : (t : Tree (.chain l)) → (continuation : List Mark) →
    tokensIn (t.marksWith (some continuation)) = tokensOf t.lexemes ++ tokensIn continuation
  | .head operand, _ => by
      simp [marksWith, lexemes, tokensIn_marks operand, Mark.token?, tokensOf]
  | .link left op _ _ right, _ => by
      rw [marksWith, tokensIn_marksWith left]
      simp [lexemes, tokensIn_marks right, Mark.token?, tokensOf]

end

end Tree

/-! ### Brackets -/

/-- A brace or a parenthesis. -/
def isBracket (c : Char) : Bool :=
  c = '(' || c = ')' || c = '\x7b' || c = '\x7d'

/-- Braces and parentheses are nested, and each has one that it goes with. -/
inductive Balanced : List Char → Prop where
  | nil : Balanced []
  | other {c : Char} {cs : List Char} (h : isBracket c = false) (behind : Balanced cs) :
      Balanced (c :: cs)
  | parentheses {cs ds : List Char} (inside : Balanced cs) (behind : Balanced ds) :
      Balanced ('(' :: cs ++ ')' :: ds)
  | braces {cs ds : List Char} (inside : Balanced cs) (behind : Balanced ds) :
      Balanced ('\x7b' :: cs ++ '\x7d' :: ds)

namespace Balanced

variable {cs ds : List Char}

theorem append (h : Balanced cs) (h' : Balanced ds) : Balanced (cs ++ ds) := by
  induction h with
  | nil => exact h'
  | other none behind ih => exact .other none ih
  | parentheses inside behind _ ih =>
      rw [List.append_assoc, List.cons_append]
      exact .parentheses inside ih
  | braces inside behind _ ih =>
      rw [List.append_assoc, List.cons_append]
      exact .braces inside ih

/-- Characters without brackets. -/
theorem of_any (h : cs.any isBracket = false) : Balanced cs := by
  induction cs with
  | nil => exact .nil
  | cons c cs ih =>
      obtain ⟨none, behind⟩ := Bool.or_eq_false_iff.mp h
      exact .other none (ih behind)

/-- Characters behind a word without brackets. -/
theorem word {word : String} (none : word.toList.any isBracket = false) (h : Balanced cs) :
    Balanced (word.toList ++ cs) :=
  (of_any none).append h

end Balanced

/-- The brackets in the text of a tree are balanced, if those in its numerals are. -/
theorem Tree.balanced_textWith {r : Rule} (t : Tree r)
    (numerals : ∀ text, .number text ∈ tokensOf t.lexemes → Balanced text.toList)
    (continuation : Option String) (behind : ∀ text ∈ continuation, Balanced text.toList) :
    Balanced (t.textWith continuation).toList := by
  induction t generalizing continuation with
  | number text span =>
      have inside : Balanced ("num: \"".toList ++ (text.toList ++ "\"".toList)) :=
        .word rfl ((numerals text (by simp [lexemes, tokensOf])).append (.of_any rfl))
      simpa [textWith] using inside.braces .nil
  | group opening inner closing ih =>
      have inside := ih (fun text mem => numerals text (by simpa [lexemes, tokensOf] using mem))
        none nofun
      simpa [textWith] using inside.parentheses .nil
  | plain operand ih => exact ih numerals none nofun
  | negated minus operand ih =>
      have balanced := ih (fun text mem => numerals text (by simpa [lexemes, tokensOf] using mem))
        none nofun
      have inside : Balanced ("neg: ".toList ++ (operand.textWith none).toList) :=
        .word rfl balanced
      simpa [textWith] using inside.braces .nil
  | head operand ih =>
      have balanced := ih numerals none nofun
      cases continuation with
      | none => exact balanced
      | some continuation =>
          have inside : Balanced ("left: ".toList ++ ((operand.textWith none).toList
              ++ (", continuation: ".toList ++ continuation.toList))) :=
            .word rfl (balanced.append (.word rfl (behind continuation rfl)))
          simpa [textWith] using inside.braces .nil
  | link left op binds sign right ihl ihr =>
      simp only [lexemes, tokensOf, List.map_append, List.map_cons, List.mem_append,
        List.mem_cons] at numerals
      have balanced := ihr (fun text mem => numerals text (.inr (.inr mem))) none nofun
      have symbol : Balanced op.symbol.toList := .of_any (by cases op <;> rfl)
      have next : Balanced (continuation.getD "nil").toList := by
        cases continuation with
        | none => exact .of_any rfl
        | some continuation => exact behind continuation rfl
      refine ihl (fun text mem => numerals text (.inl mem)) _ ?_
      rintro _ ⟨⟩
      have inside : Balanced ("op: '".toList ++ (op.symbol.toList ++ ("', right: ".toList
          ++ ((right.textWith none).toList
            ++ (", continuation: ".toList ++ (continuation.getD "nil").toList))))) :=
        .word rfl (symbol.append
          (.word rfl (balanced.append (.word rfl next))))
      simpa using inside.braces .nil

/-! ### Places -/

namespace Tree

/-- The tree without the places of its tokens. -/
def unplaced {r : Rule} : Tree r → Tree r
  | .number text _ => .number text default
  | .group _ inner _ => .group default inner.unplaced default
  | .plain operand => .plain operand.unplaced
  | .negated _ operand => .negated default operand.unplaced
  | .head operand => .head operand.unplaced
  | .link left op binds _ right => .link left.unplaced op binds default right.unplaced

theorem lexemes_unplaced {r : Rule} (t : Tree r) :
    t.unplaced.lexemes = (tokensOf t.lexemes).map (⟨·, default⟩) := by
  induction t with
  | number text span => rfl
  | group opening inner closing ih => simp [unplaced, lexemes, ih, tokensOf]
  | plain operand ih => exact ih
  | negated minus operand ih => simp [unplaced, lexemes, ih, tokensOf]
  | head operand ih => exact ih
  | link left op binds sign right ihl ihr => simp [unplaced, lexemes, ihl, ihr, tokensOf]

theorem textWith_unplaced {r : Rule} (t : Tree r) (continuation : Option String) :
    t.unplaced.textWith continuation = t.textWith continuation := by
  induction t generalizing continuation with
  | number text span => rfl
  | group opening inner closing ih => rw [unplaced, textWith, textWith, ih]
  | plain operand ih => exact ih none
  | negated minus operand ih => rw [unplaced, textWith, textWith, ih]
  | head operand ih => cases continuation <;> rw [unplaced, textWith, textWith, ih]
  | link left op binds sign right ihl ihr => rw [unplaced, textWith, textWith, ihl, ihr]

theorem tokensOf_unplaced {r : Rule} (t : Tree r) :
    tokensOf t.unplaced.lexemes = tokensOf t.lexemes := by
  rw [lexemes_unplaced, tokensOf, List.map_map]
  exact List.map_id _

/-- Chains without places are the same if their tokens are. -/
theorem unplaced_eq_iff {l : Level} {t t' : Tree (.chain l)} :
    t.unplaced = t'.unplaced ↔ tokensOf t.lexemes = tokensOf t'.lexemes := by
  constructor
  · intro h
    rw [← tokensOf_unplaced t, h, tokensOf_unplaced]
  · intro h
    have derives := t.unplaced.derives
    rw [lexemes_unplaced, h, ← lexemes_unplaced] at derives
    exact derives.unique t'.unplaced.derives

end Tree

/-! ### The trees of lines -/

/-- Numerals are made of digits, separators and points. -/
theorem chars_of_scan {line text : String} {xs : List Lexeme} (h : scan line = .ok xs)
    (mem : .number text ∈ tokensOf xs) : ∀ c ∈ text.toList, c.isDigit ∨ c = ',' ∨ c = '.' := by
  obtain ⟨⟨_, span⟩, lexeme, rfl⟩ := List.mem_map.mp mem
  obtain ⟨whole, fraction, separated⟩ := exists_separated (numeral_of_scan h lexeme).1
  intro c mem
  rw [separated.toList_eq] at mem
  rcases List.mem_append.mp mem with mem | mem
  · rcases separated.whole_chars c mem with digit | comma
    · exact .inl digit
    · exact .inr (.inl comma)
  · rcases mem_point mem with dot | mem
    · exact .inr (.inr dot)
    · exact .inl (separated.fraction_digits c mem)

variable {source source' : String} {t t' : ExprTree}

/-- The text of the tree of a line is read as the marks of the tree. -/
theorem legible_of_parse (parsed : parse source = .ok t) : ∀ m ∈ t.marksWith none, m.Legible := by
  rintro _ mem text rfl quote
  have mem : .number text ∈ tokensOf t.lexemes := by
    rw [← Tree.tokensIn_marks]
    exact List.mem_flatMap.mpr ⟨_, mem, List.mem_singleton.mpr rfl⟩
  rcases chars_of_scan (scan_of_parse parsed).1 mem _ quote with digit | comma | dot
  · exact absurd digit (by decide)
  · exact absurd comma (by decide)
  · exact absurd dot (by decide)

theorem balanced_of_parse (parsed : parse source = .ok t) : Balanced t.text.toList := by
  refine t.balanced_textWith (fun text mem => .of_any (List.any_eq_false.mpr fun c mem' => ?_))
    none nofun
  rcases chars_of_scan (scan_of_parse parsed).1 mem c mem' with digit | rfl | rfl
  · intro bracket
    simp only [isBracket, Bool.or_eq_true, decide_eq_true_eq] at bracket
    rcases bracket with ((rfl | rfl) | rfl) | rfl <;> exact absurd digit (by decide)
  · decide
  · decide

/-- **The text of a tree is unambiguous.**  Whatever two lines are parsed, their trees have the
same text if and only if the lines have the same tokens, numerals as written included, and if and
only if the trees are the same up to the places of these tokens.  In the text of every such tree,
the braces and parentheses are balanced. -/
theorem text_unambiguous (parsed : parse source = .ok t) (parsed' : parse source' = .ok t') :
    scan source = .ok t.lexemes ∧ scan source' = .ok t'.lexemes ∧
      (t.text = t'.text ↔ tokensOf t.lexemes = tokensOf t'.lexemes) ∧
      (t.text = t'.text ↔ t.unplaced = t'.unplaced) ∧
      Balanced t.text.toList ∧ Balanced t'.text.toList := by
  have tokens : t.text = t'.text ↔ tokensOf t.lexemes = tokensOf t'.lexemes := by
    constructor
    · intro h
      have marks : t.marksWith none = t'.marksWith none := by
        refine eq_of_charsOf_eq (legible_of_parse parsed) (legible_of_parse parsed') ?_
        rw [← Tree.toList_text, h, Tree.toList_text]
      rw [← Tree.tokensIn_marks, marks, Tree.tokensIn_marks]
    · intro h
      rw [Tree.text, ← Tree.textWith_unplaced, Tree.unplaced_eq_iff.mpr h, Tree.textWith_unplaced,
        ← Tree.text]
  exact ⟨(scan_of_parse parsed).1, (scan_of_parse parsed').1, tokens,
    tokens.trans Tree.unplaced_eq_iff.symm, balanced_of_parse parsed, balanced_of_parse parsed'⟩

/-- The tree of `1 ** -(2)`. -/
def widePower : ExprTree :=
  .head (.head (.link (.head (.plain (.number "1" ⟨0, 1⟩))) .pow rfl ⟨2, 4⟩ (.negated ⟨5, 6⟩
    (.group ⟨6, 7⟩ (.head (.head (.head (.plain (.number "2" ⟨7, 8⟩))))) ⟨8, 9⟩))))

/-- The tree of `1**-(2)`. -/
def densePower : ExprTree :=
  .head (.head (.link (.head (.plain (.number "1" ⟨0, 1⟩))) .pow rfl ⟨1, 3⟩ (.negated ⟨3, 4⟩
    (.group ⟨4, 5⟩ (.head (.head (.head (.plain (.number "2" ⟨5, 6⟩))))) ⟨6, 7⟩))))

/-- Blanks are not shown. -/
theorem text_unambiguous_power : parse "1 ** -(2)" = .ok widePower ∧
    parse "1**-(2)" = .ok densePower ∧ widePower.span ≠ densePower.span ∧
      widePower.text = densePower.text ∧ widePower.unplaced = densePower.unplaced ∧
        Balanced widePower.text.toList := by
  have wide : parse "1 ** -(2)" = .ok widePower := by rfl
  have dense : parse "1**-(2)" = .ok densePower := by rfl
  obtain ⟨-, -, tokens, shape, balanced, -⟩ := text_unambiguous wide dense
  have same : widePower.text = densePower.text := tokens.mpr (by decide)
  exact ⟨wide, dense, by decide, same, shape.mp same, balanced⟩

end Calculator
