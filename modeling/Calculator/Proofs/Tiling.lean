import Calculator.Proofs.Patterns

/-!
# Tokens — a line and its tokens

Scanning cuts a line into tokens and the blanks between them, counted in bytes.

* `Tiled`: the lexemes are the tokens of a part of a line, each the longest where it starts.
* `Tiled.cons_blank`, `Tiled.cons_token`: what one blank and one token in front add.
* `scan_tiled`: **scanning is faithful**: the tokens of a line tile it, and where scanning stops,
  they tile what is in front of the character that starts no token.
-/

namespace Calculator

/-! ### Bytes -/

/-- The number of bytes of a text. -/
def byteLength (cs : List Char) : Nat := (String.ofList cs).utf8ByteSize

theorem byteLength_toList (text : String) : byteLength text.toList = text.utf8ByteSize := by
  rw [byteLength, String.ofList_toList]

theorem byteLength_append (a b : List Char) :
    byteLength (a ++ b) = byteLength a + byteLength b := by
  rw [byteLength, String.ofList_append, String.utf8ByteSize_append, byteLength, byteLength]

theorem byteLength_cons (c : Char) (cs : List Char) :
    byteLength (c :: cs) = c.utf8Size + byteLength cs := by
  rw [byteLength, String.ofList_cons, String.utf8ByteSize_append, String.utf8ByteSize_singleton,
    byteLength]

theorem byteLength_eq_length {cs : List Char} (h : ∀ c ∈ cs, c.utf8Size = 1) :
    byteLength cs = cs.length := by
  induction cs with
  | nil => rfl
  | cons c cs ih =>
      obtain ⟨hc, hcs⟩ := List.forall_mem_cons.mp h
      rw [byteLength_cons, hc, ih hcs, List.length_cons, Nat.add_comm]

/-- Every character has a byte. -/
theorem length_le_byteLength (cs : List Char) : cs.length ≤ byteLength cs := by
  induction cs with
  | nil => exact Nat.zero_le _
  | cons c cs ih =>
      have := c.utf8Size_pos
      rw [byteLength_cons, List.length_cons]
      omega

/-- A line has one cut at a byte. -/
theorem append_inj_of_byteLength {a b x y : List Char} (h : a ++ x = b ++ y)
    (same : byteLength a = byteLength b) : a = b ∧ x = y := by
  have nil (cs : List Char) (zero : byteLength cs = 0) : cs = [] :=
    List.length_eq_zero_iff.mp (Nat.le_zero.mp (zero ▸ length_le_byteLength cs))
  rcases List.append_eq_append_iff.mp h with ⟨cs, rfl, rfl⟩ | ⟨cs, rfl, rfl⟩
  · rw [byteLength_append] at same
    obtain rfl := nil cs (by omega)
    exact ⟨(List.append_nil a).symm, rfl⟩
  · rw [byteLength_append] at same
    obtain rfl := nil cs (by omega)
    exact ⟨List.append_nil b, rfl⟩

/-! ### Tilings -/

/-- The text of the lexeme stands in the line between `before` and `after`, at the bytes of its
span. -/
structure Lexeme.Stands (x : Lexeme) (line before after : List Char) : Prop where
  line_eq : line = before ++ (x.token.text.toList ++ after)
  start_eq : x.span.start = byteLength before
  stop_eq : x.span.stop = byteLength before + byteLength x.token.text.toList

/-- The lexemes are the tokens of a line between two bytes. -/
structure Tiled (line : List Char) (start stop : Nat) (xs : List Lexeme) : Prop where
  le : start ≤ stop
  /-- Every span has a byte, and lies between the two. -/
  bounds : ∀ x ∈ xs, start ≤ x.span.start ∧ x.span.start < x.span.stop ∧ x.span.stop ≤ stop
  /-- Spans are in order, and no two of them overlap. -/
  ordered : xs.Pairwise fun x y => x.span.stop ≤ y.span.start
  /-- Every lexeme has the text at its span, and no longer token starts there; blanks are no
  lexemes. -/
  token : ∀ x ∈ xs, x.token ≠ .blank ∧ ∃ before after, x.Stands line before after ∧
    x.token.Longest x.token.text.toList after
  /-- What is at no lexeme's span is a space, tab, form feed, carriage return or line feed. -/
  blank : ∀ before c after, line = before ++ c :: after → start ≤ byteLength before →
    byteLength before < stop →
    (∀ x ∈ xs, byteLength before < x.span.start ∨ x.span.stop ≤ byteLength before) →
    c ∈ [' ', '\t', '\x0c', '\r', '\n']

namespace Tiled

variable {line before after : List Char} {c : Char} {stop : Nat} {xs : List Lexeme}

theorem nil (line : List Char) (start : Nat) : Tiled line start start [] where
  le := Nat.le_refl start
  bounds := by rintro _ ⟨⟩
  ordered := .nil
  token := by rintro _ ⟨⟩
  blank := by
    intro before c after _ lower upper
    omega

/-- A blank in front of a tiled part. -/
theorem cons_blank (h : line = before ++ c :: after) (hc : isBlank c)
    (tiled : Tiled line (byteLength before + 1) stop xs) :
    Tiled line (byteLength before) stop xs where
  le := by
    have := tiled.le
    omega
  bounds := by
    intro x hx
    have := tiled.bounds x hx
    omega
  ordered := tiled.ordered
  token := tiled.token
  blank := by
    intro before' c' after' h' lower upper none
    rcases Nat.eq_or_lt_of_le lower with same | later
    · obtain ⟨-, e⟩ := append_inj_of_byteLength (h.symm.trans h') same
      obtain ⟨rfl, -⟩ := List.cons.inj e
      exact isBlank_iff.mp hc
    · exact tiled.blank before' c' after' h' later upper none

/-- A token in front of a tiled part. -/
theorem cons_token {x : Lexeme} (stands : x.Stands line before after) (kept : x.token ≠ .blank)
    (longest : x.token.Longest x.token.text.toList after)
    (tiled : Tiled line x.span.stop stop xs) : Tiled line (byteLength before) stop (x :: xs) := by
  have start := stands.start_eq
  have nonempty : x.span.start < x.span.stop := by
    have := length_le_byteLength x.token.text.toList
    have := List.length_pos_iff.mpr (Token.ne_nil_of_mem longest.mem)
    rw [start, stands.stop_eq]
    omega
  have le := tiled.le
  refine ⟨by omega, ?_, ?_, ?_, ?_⟩
  · refine List.forall_mem_cons.mpr ⟨⟨by omega, nonempty, le⟩, fun y hy => ?_⟩
    have := tiled.bounds y hy
    omega
  · exact List.pairwise_cons.mpr ⟨fun y hy => (tiled.bounds y hy).1, tiled.ordered⟩
  · exact List.forall_mem_cons.mpr ⟨⟨kept, before, after, stands, longest⟩, tiled.token⟩
  · intro before' c after' h' lower upper none
    obtain ⟨outside, none⟩ := List.forall_mem_cons.mp none
    exact tiled.blank before' c after' h' (by omega) upper none

end Tiled

/-! ### Scanning -/

/-- What scanning a line from a byte on leads to: the tokens from there to its end, or the fault of
the first character, with the tokens in front of it, at which no token starts. -/
def Scanned (line : List Char) (start : Nat) : Except ParseError (List Lexeme) → Prop
  | .ok xs => Tiled line start (byteLength line) xs
  | .error e => ∃ before c after xs, line = before ++ c :: after ∧
      e = ⟨.unexpectedCharacter (String.singleton c), byteLength before + 1, []⟩ ∧
      Tiled line start (byteLength before) xs ∧
      ∀ (token : Token) (front : List Char), front <+: c :: after → front ∉ token.pattern

namespace Scanned

variable {line before after : List Char} {c : Char} {result : Except ParseError (List Lexeme)}

theorem cons_blank (h : line = before ++ c :: after) (hc : isBlank c)
    (scanned : Scanned line (byteLength before + 1) result) :
    Scanned line (byteLength before) result := by
  cases result with
  | ok xs => exact Tiled.cons_blank h hc scanned
  | error e =>
      obtain ⟨front, d, rest, xs, split, fault, tiled, stuck⟩ := scanned
      exact ⟨front, d, rest, xs, split, fault, tiled.cons_blank h hc, stuck⟩

theorem cons_token {x : Lexeme} (stands : x.Stands line before after) (kept : x.token ≠ .blank)
    (longest : x.token.Longest x.token.text.toList after)
    (scanned : Scanned line x.span.stop result) :
    Scanned line (byteLength before) (result.map (x :: ·)) := by
  cases result with
  | ok xs => exact Tiled.cons_token stands kept longest scanned
  | error e =>
      obtain ⟨front, d, rest, xs, split, fault, tiled, stuck⟩ := scanned
      exact ⟨front, d, rest, x :: xs, split, fault, tiled.cons_token stands kept longest, stuck⟩

end Scanned

theorem scanFrom_scanned {line : List Char} (cs before : List Char) (h : line = before ++ cs) :
    Scanned line (byteLength before) (scanFrom cs (byteLength before) 0 []) := by
  induction cs using scan_induction generalizing before with
  | nil =>
      rw [scanFrom_nil, h, List.append_nil]
      exact .nil _ _
  | blank c rest hc ih =>
      have mem : [c] ∈ Token.blank.pattern :=
        Pattern.mem_oneOf_mul_kstar.mpr ⟨nofun, List.forall_mem_singleton.mpr (isBlank_iff.mp hc)⟩
      have size : byteLength (before ++ [c]) = byteLength before + 1 := by
        rw [byteLength_append, byteLength_eq_length (Token.utf8Size_of_mem mem)]
        rfl
      have scanned := ih (before ++ [c]) (by rw [h, List.append_assoc, List.singleton_append])
      rw [scanFrom_blank hc]
      rw [size] at scanned
      exact scanned.cons_blank h hc
  | token c rest token more hc hr ih =>
      obtain ⟨kept, text⟩ := Token.text_read? hc hr
      have longest := Token.longest_read? hr
      have length : (c :: rest.take more).length = 1 + more := by
        rw [List.length_cons, List.length_take, Nat.min_eq_left (Token.read?_le hr), Nat.add_comm]
      have size : byteLength (c :: rest.take more) = 1 + more := by
        rw [byteLength_eq_length (Token.utf8Size_of_mem longest.mem), length]
      have split : line = before ++ (c :: rest.take more ++ rest.drop more) := by
        rw [h, List.cons_append, List.take_append_drop]
      have scanned := ih (before ++ c :: rest.take more) (by rw [split, List.append_assoc])
      rw [byteLength_append, size, ← Nat.add_assoc] at scanned
      rw [scanFrom_token hc hr]
      rw [← text] at longest split size
      have stop : byteLength before + 1 + more
          = byteLength before + byteLength token.text.toList := by rw [size, Nat.add_assoc]
      exact scanned.cons_token ⟨split, rfl, stop⟩ kept longest
  | stuck c rest hc hr =>
      rw [scanFrom_none hr]
      refine ⟨before, c, rest, [], h, rfl, .nil _ _, fun token front starts mem => ?_⟩
      obtain ⟨_, _, read, -⟩ := Token.read?_of_mem mem starts
      cases hr.symm.trans read

/-- The lexemes of a line tile it. -/
theorem tiled_of_scan {line : String} {xs : List Lexeme} (h : scan line = .ok xs) :
    Tiled line.toList 0 line.utf8ByteSize xs := by
  have scanned : Scanned line.toList 0 (scan line) := scanFrom_scanned line.toList [] rfl
  rwa [h, Scanned, byteLength_toList] at scanned

/-- Where scanning stops, lexemes tile what is in front of the character that starts no token. -/
theorem exists_stuck_of_scan {line : String} {e : ParseError} (h : scan line = .error e) :
    ∃ before c after xs, line.toList = before ++ c :: after ∧
      e = ⟨.unexpectedCharacter (String.singleton c), byteLength before + 1, []⟩ ∧
      Tiled line.toList 0 (byteLength before) xs ∧
      ∀ (token : Token) (front : List Char), front <+: c :: after → front ∉ token.pattern := by
  have scanned : Scanned line.toList 0 (scan line) := scanFrom_scanned line.toList [] rfl
  rwa [h] at scanned

/-- **Scanning is faithful.**  If a line is scanned, its lexemes tile it: they have the texts at
their spans, each is the longest token that starts there, and what is between them is blank.
Otherwise the fault names the first character at which no token starts, and the lexemes in front of
it tile what is in front of it. -/
theorem scan_tiled (line : String) :
    (∀ xs, scan line = .ok xs → Tiled line.toList 0 line.utf8ByteSize xs) ∧
      ∀ e, scan line = .error e → ∃ before c after xs, line.toList = before ++ c :: after ∧
        e = ⟨.unexpectedCharacter (String.singleton c), byteLength before + 1, []⟩ ∧
        Tiled line.toList 0 (byteLength before) xs ∧
        ∀ (token : Token) (front : List Char), front <+: c :: after → front ∉ token.pattern := by
  have scanned : Scanned line.toList 0 (scan line) := scanFrom_scanned line.toList [] rfl
  have size : byteLength line.toList = line.utf8ByteSize := by
    rw [byteLength, String.ofList_toList]
  constructor
  · intro xs h
    rw [h, Scanned, size] at scanned
    exact scanned
  · intro e h
    rwa [h] at scanned

end Calculator
