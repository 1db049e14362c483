import Mathlib.Computability.Language
import Mathlib.Order.CompletePartialOrder
import Calculator.Proofs.Scanning

/-!
# Tokens — the patterns of tokens

The texts of each kind of token form a regular language: numerals have three patterns, which may
start alike, blanks come in runs, and every other token has one text.  A token that is read is the
longest text of any of them that the line starts with.

* `Pattern.take_numeralLength_mem`, `Pattern.length_le_numeralLength`: a numeral is the longest
  match of its three patterns.
* `Token.read?_of_mem`: where the text of a token stands, a token at least as long is read.
* `Token.utf8Size_of_mem`: tokens have one byte a character.
* `Token.longest_read?`: **the token that is read is the longest**, and its text is one of its kind.
-/

namespace Calculator

open scoped Computability

/-! ### The patterns -/

namespace Pattern

/-- One character with the property. -/
def oneOf (p : Char → Prop) : Language Char := {cs | ∃ c, cs = [c] ∧ p c}

/-- A digit. -/
def digit : Language Char := oneOf fun c => c.isDigit

/-- A run of digits. -/
def digits : Language Char := digit * digit∗

/-- A point and the digits behind it. -/
def fraction : Language Char := {['.']} * digits

/-- A separator and three digits. -/
def group : Language Char := {[',']} * digit ^ 3

/-- One to three digits and at least one group, with a fraction or without. -/
def grouped : Language Char :=
  (digit + digit ^ 2 + digit ^ 3) * (group * group∗) * (1 + fraction)

/-- A fraction, with digits in front of it or without. -/
def dotted : Language Char := digit∗ * fraction

/-- The texts of numerals. -/
def numeral : Language Char := grouped + dotted + digits

/-- A space, tab, form feed, carriage return or line feed. -/
def blank : Language Char := oneOf (· ∈ [' ', '\t', '\x0c', '\r', '\n'])

/-- A run of blanks. -/
def blanks : Language Char := blank * blank∗

end Pattern

/-- The texts that may be read as the token: a numeral is read as its own text, blanks in any
number are one token, and every other token has its sign only. -/
def Token.pattern : Token → Language Char
  | .number text => {cs | cs = text.toList ∧ cs ∈ Pattern.numeral}
  | .blank => Pattern.blanks
  | token => {token.text.toList}

/-- At the front of `piece ++ rest`, the text `piece` is one of the token's, and no longer text
there is one of any token's. -/
structure Token.Longest (token : Token) (piece rest : List Char) : Prop where
  mem : piece ∈ token.pattern
  longest : ∀ (other : Token) (front : List Char), front <+: piece ++ rest →
    front ∈ other.pattern → front.length ≤ piece.length

/-! ### Characters of patterns -/

namespace Pattern

variable {p : Char → Prop} {cs rest : List Char}

theorem mem_oneOf_kstar : cs ∈ (oneOf p)∗ ↔ ∀ c ∈ cs, p c := by
  rw [Language.mem_kstar]
  constructor
  · rintro ⟨pieces, rfl, h⟩ c hc
    obtain ⟨piece, mem, hc⟩ := List.mem_flatten.mp hc
    obtain ⟨d, rfl, hd⟩ := h piece mem
    obtain rfl := List.mem_singleton.mp hc
    exact hd
  · intro h
    refine ⟨cs.map fun c => [c], by simp [← List.flatMap_def], fun piece mem => ?_⟩
    obtain ⟨c, hc, rfl⟩ := List.mem_map.mp mem
    exact ⟨c, rfl, h c hc⟩

theorem mem_oneOf_mul_kstar : cs ∈ oneOf p * (oneOf p)∗ ↔ cs ≠ [] ∧ ∀ c ∈ cs, p c := by
  rw [Language.mem_mul]
  constructor
  · rintro ⟨_, ⟨c, rfl, hc⟩, ds, hd, rfl⟩
    refine ⟨nofun, fun d mem => ?_⟩
    rcases List.mem_cons.mp mem with rfl | mem
    · exact hc
    · exact mem_oneOf_kstar.mp hd d mem
  · rintro ⟨ne, h⟩
    obtain ⟨c, ds, rfl⟩ := List.exists_cons_of_ne_nil ne
    exact ⟨[c], ⟨c, rfl, h c (by simp)⟩, ds,
      mem_oneOf_kstar.mpr fun d hd => h d (List.mem_cons_of_mem c hd), rfl⟩

theorem mem_oneOf_pow {n : Nat} : cs ∈ oneOf p ^ n ↔ cs.length = n ∧ ∀ c ∈ cs, p c := by
  induction n generalizing cs with
  | zero => simp +contextual [Language.mem_one]
  | succ n ih =>
      rw [pow_succ', Language.mem_mul]
      constructor
      · rintro ⟨_, ⟨c, rfl, hc⟩, ds, hd, rfl⟩
        obtain ⟨length, h⟩ := ih.mp hd
        exact ⟨congrArg (· + 1) length, List.forall_mem_cons.mpr ⟨hc, h⟩⟩
      · rintro ⟨length, h⟩
        obtain ⟨c, ds, rfl⟩ := List.exists_cons_of_length_eq_add_one length
        obtain ⟨hc, hd⟩ := List.forall_mem_cons.mp h
        exact ⟨[c], ⟨c, rfl, hc⟩, ds, ih.mpr ⟨Nat.succ.inj length, hd⟩, rfl⟩

theorem mem_digits : cs ∈ digits ↔ cs ≠ [] ∧ ∀ c ∈ cs, c.isDigit := mem_oneOf_mul_kstar

theorem mem_fraction : cs ∈ fraction ↔ ∃ ds ∈ digits, cs = '.' :: ds := by
  rw [fraction, Language.mem_mul]
  constructor
  · rintro ⟨_, rfl, ds, hd, rfl⟩
    exact ⟨ds, hd, rfl⟩
  · rintro ⟨ds, hd, rfl⟩
    exact ⟨['.'], rfl, ds, hd, rfl⟩

theorem mem_group : cs ∈ group ↔
    ∃ a b c, cs = [',', a, b, c] ∧ a.isDigit ∧ b.isDigit ∧ c.isDigit := by
  rw [group, Language.mem_mul]
  constructor
  · rintro ⟨_, rfl, ds, hd, rfl⟩
    obtain ⟨length, h⟩ := mem_oneOf_pow.mp hd
    obtain ⟨a, b, c, rfl⟩ := List.length_eq_three.mp length
    exact ⟨a, b, c, rfl, h a (by simp), h b (by simp), h c (by simp)⟩
  · rintro ⟨a, b, c, rfl, ha, hb, hc⟩
    exact ⟨[','], rfl, [a, b, c], mem_oneOf_pow.mpr ⟨rfl, by simp [ha, hb, hc]⟩, rfl⟩

theorem mem_groups (h : cs ∈ group * group∗) : cs ∈ group∗ :=
  (mul_kstar_le_kstar : group * group∗ ≤ group∗) h

/-- The characters of groups are digits and separators. -/
theorem mem_groups_chars (h : cs ∈ group∗) : ∀ c ∈ cs, c.isDigit ∨ c = ',' := by
  obtain ⟨groups, rfl, all⟩ := Language.mem_kstar.mp h
  intro c mem
  obtain ⟨piece, hp, hc⟩ := List.mem_flatten.mp mem
  obtain ⟨x, y, z, rfl, hx, hy, hz⟩ := mem_group.mp (all piece hp)
  simp only [List.mem_cons, List.not_mem_nil, or_false] at hc
  rcases hc with rfl | rfl | rfl | rfl
  · exact .inr rfl
  · exact .inl hx
  · exact .inl hy
  · exact .inl hz

/-- Digits, in one of three numbers. -/
theorem mem_digit_pow {k m n : Nat} : cs ∈ digit ^ k + digit ^ m + digit ^ n ↔
    (cs.length = k ∨ cs.length = m ∨ cs.length = n) ∧ ∀ c ∈ cs, c.isDigit := by
  rw [Language.mem_add, Language.mem_add, digit, mem_oneOf_pow, mem_oneOf_pow, mem_oneOf_pow,
    ← or_and_right, ← or_and_right, or_assoc]

/-- The digits in front of the groups. -/
theorem mem_lead : cs ∈ digit + digit ^ 2 + digit ^ 3 ↔
    (1 ≤ cs.length ∧ cs.length ≤ 3) ∧ ∀ c ∈ cs, c.isDigit := by
  have lengths := @mem_digit_pow cs 1 2 3
  rw [pow_one] at lengths
  exact lengths.trans (and_congr_left fun _ => by omega)

/-! ### The longest numeral -/

theorem digitRun_append_of_digits (h : ∀ c ∈ cs, c.isDigit) (rest : List Char) :
    digitRun (cs ++ rest) = cs.length + digitRun rest := by
  rw [digitRun, List.takeWhile_append_of_pos h, List.length_append, digitRun]

theorem groupsLength_append_of_groups (h : cs ∈ group∗) :
    groupsLength (cs ++ rest) = cs.length + groupsLength rest := by
  obtain ⟨groups, rfl, all⟩ := Language.mem_kstar.mp h
  clear h
  induction groups with
  | nil => exact (Nat.zero_add _).symm
  | cons piece groups ih =>
      obtain ⟨a, b, c, rfl, ha, hb, hc⟩ := mem_group.mp (all piece (by simp))
      have ih := ih fun other mem => all other (List.mem_cons_of_mem _ mem)
      simp only [List.flatten_cons, List.cons_append, List.nil_append, groupsLength, ha, hb, hc,
        Bool.and_self, if_true, ih, List.length_cons]
      omega

/-- A fraction at the front is no longer than the one that is counted. -/
theorem length_le_fractionLength (h : cs ∈ fraction) (rest : List Char) :
    cs.length ≤ fractionLength (cs ++ rest) := by
  obtain ⟨ds, hd, rfl⟩ := mem_fraction.mp h
  obtain ⟨ne, hd⟩ := mem_digits.mp hd
  have run := digitRun_append_of_digits hd rest
  have pos := List.length_pos_iff.mpr ne
  rw [List.cons_append, fractionLength, if_neg (by omega), run, List.length_cons]
  omega

/-- Groups are not counted in front of a fraction. -/
theorem groupsLength_fraction (h : cs ∈ fraction) : groupsLength (cs ++ rest) = 0 := by
  obtain ⟨ds, -, rfl⟩ := mem_fraction.mp h
  rfl

theorem digitRun_fraction (h : cs ∈ fraction) : digitRun (cs ++ rest) = 0 := by
  obtain ⟨ds, -, rfl⟩ := mem_fraction.mp h
  rfl

theorem digitRun_groups (h : cs ∈ group * group∗) : digitRun (cs ++ rest) = 0 := by
  obtain ⟨piece, mem, more, -, rfl⟩ := Language.mem_mul.mp h
  obtain ⟨a, b, c, rfl, -⟩ := mem_group.mp mem
  rfl

theorem length_le_of_grouped (h : cs ∈ grouped) : cs.length ≤ numeralLength (cs ++ rest) := by
  obtain ⟨_, mem, tail, ht, rfl⟩ := Language.mem_mul.mp h
  obtain ⟨lead, hl, groups, hg, rfl⟩ := Language.mem_mul.mp mem
  obtain ⟨short, hl⟩ := mem_lead.mp hl
  have run : digitRun (lead ++ (groups ++ (tail ++ rest))) = lead.length := by
    rw [digitRun_append_of_digits hl, digitRun_groups hg, Nat.add_zero]
  have whole : wholeLength (lead ++ (groups ++ (tail ++ rest)))
      = lead.length + (groups.length + groupsLength (tail ++ rest)) := by
    simp only [wholeLength, run]
    rw [if_pos short, List.drop_left, groupsLength_append_of_groups (mem_groups hg)]
  rw [List.append_assoc, List.append_assoc, List.append_assoc, numeralLength, whole,
    List.length_append, List.length_append]
  rcases ht with none | fraction
  · obtain rfl : tail = [] := none
    rw [List.length_nil]
    omega
  · have behind : (lead ++ (groups ++ (tail ++ rest))).drop (lead.length + groups.length)
        = tail ++ rest := by
      rw [← List.append_assoc, ← List.length_append, List.drop_left]
    have := length_le_fractionLength fraction rest
    rw [groupsLength_fraction fraction, Nat.add_zero, behind]
    omega

theorem length_le_of_dotted (h : cs ∈ dotted) : cs.length ≤ numeralLength (cs ++ rest) := by
  obtain ⟨whole, hw, tail, fraction, rfl⟩ := Language.mem_mul.mp h
  have run : digitRun (whole ++ (tail ++ rest)) = whole.length := by
    rw [digitRun_append_of_digits (mem_oneOf_kstar.mp hw), digitRun_fraction fraction,
      Nat.add_zero]
  have length : wholeLength (whole ++ (tail ++ rest)) = whole.length := by
    simp only [wholeLength, run, List.drop_left, groupsLength_fraction fraction, Nat.add_zero,
      ite_self]
  have := length_le_fractionLength fraction rest
  rw [List.append_assoc, numeralLength, length, List.drop_left, List.length_append]
  omega

theorem digitRun_le_wholeLength (cs : List Char) : digitRun cs ≤ wholeLength cs := by
  simp only [wholeLength]
  split <;> omega

theorem length_le_of_digits (h : cs ∈ digits) : cs.length ≤ numeralLength (cs ++ rest) := by
  have run := digitRun_append_of_digits (mem_digits.mp h).2 rest
  have := digitRun_le_wholeLength (cs ++ rest)
  rw [numeralLength]
  omega

/-- No text of the three patterns at the front is longer than the numeral there. -/
theorem length_le_numeralLength (h : cs ∈ numeral) (rest : List Char) :
    cs.length ≤ numeralLength (cs ++ rest) := by
  rcases h with (grouped | dotted) | digits
  · exact length_le_of_grouped grouped
  · exact length_le_of_dotted dotted
  · exact length_le_of_digits digits

theorem take_digitRun (cs : List Char) : ∀ c ∈ cs.take (digitRun cs), c.isDigit := by
  intro c hc
  rw [digitRun, ← List.prefix_iff_eq_take.mp (List.takeWhile_prefix _)] at hc
  exact List.all_eq_true.mp List.all_takeWhile c hc

theorem take_fractionLength_mem (h : fractionLength cs ≠ 0) :
    cs.take (fractionLength cs) ∈ fraction := by
  unfold fractionLength at h ⊢
  split
  · rename_i ds
    by_cases none : digitRun ds = 0
    · simp [none] at h
    · rw [if_neg none, Nat.add_comm, List.take_succ_cons]
      refine mem_fraction.mpr ⟨_, mem_digits.mpr ⟨fun nil => ?_, take_digitRun ds⟩, rfl⟩
      have := congrArg List.length nil
      rw [List.length_take, Nat.min_eq_left (digitRun_le ds)] at this
      exact none this
  · simp at h

theorem take_groupsLength_mem (cs : List Char) : cs.take (groupsLength cs) ∈ group∗ := by
  fun_induction groupsLength cs with
  | case1 a b c rest three ih =>
      simp only [Bool.and_eq_true] at three
      have first : [',', a, b, c] ∈ group :=
        mem_group.mpr ⟨a, b, c, rfl, three.1.1, three.1.2, three.2⟩
      rw [Nat.add_comm]
      exact mem_groups (Language.append_mem_mul first ih)
  | case2 => exact Language.nil_mem_kstar _
  | case3 => exact Language.nil_mem_kstar _

theorem take_groupsLength_mem_of_ne (h : groupsLength cs ≠ 0) :
    cs.take (groupsLength cs) ∈ group * group∗ := by
  have mem := take_groupsLength_mem cs
  rw [← Language.one_add_self_mul_kstar_eq_kstar] at mem
  refine mem.resolve_left fun nil => h ?_
  have := congrArg List.length (show cs.take (groupsLength cs) = [] from nil)
  rwa [List.length_take, Nat.min_eq_left (groupsLength_le cs)] at this

/-- The numeral at the front has one of the three patterns. -/
theorem take_numeralLength_mem (h : numeralLength cs ≠ 0) :
    cs.take (numeralLength cs) ∈ numeral := by
  have run : (cs.take (digitRun cs)).length = digitRun cs := by
    rw [List.length_take, Nat.min_eq_left (digitRun_le cs)]
  rw [numeralLength] at h ⊢
  rw [List.take_add]
  by_cases groups : (1 ≤ digitRun cs ∧ digitRun cs ≤ 3) ∧ groupsLength (cs.drop (digitRun cs)) ≠ 0
  · obtain ⟨short, ne⟩ := groups
    have lead := mem_lead.mpr ⟨run.symm ▸ short, take_digitRun cs⟩
    have whole : wholeLength cs = digitRun cs + groupsLength (cs.drop (digitRun cs)) := by
      simp only [wholeLength, if_pos short]
    refine .inl (.inl (Language.append_mem_mul ?_ ?_))
    · rw [whole, List.take_add]
      exact Language.append_mem_mul lead (take_groupsLength_mem_of_ne ne)
    · by_cases none : fractionLength (cs.drop (wholeLength cs)) = 0
      · rw [none]
        exact .inl rfl
      · exact .inr (take_fractionLength_mem none)
  · have whole : wholeLength cs = digitRun cs := by
      simp only [wholeLength]
      split <;> omega
    rw [whole] at h ⊢
    by_cases none : fractionLength (cs.drop (digitRun cs)) = 0
    · rw [none, List.take_zero, List.append_nil]
      refine .inr (mem_digits.mpr ⟨fun nil => ?_, take_digitRun cs⟩)
      rw [nil, List.length_nil] at run
      omega
    · exact .inl (.inr (Language.append_mem_mul (mem_oneOf_kstar.mpr (take_digitRun cs))
        (take_fractionLength_mem none)))

theorem ne_nil_of_mem_numeral (h : cs ∈ numeral) : cs ≠ [] := by
  rcases h with (grouped | dotted) | digits
  · obtain ⟨_, mem, tail, -, rfl⟩ := Language.mem_mul.mp grouped
    obtain ⟨lead, hl, groups, -, rfl⟩ := Language.mem_mul.mp mem
    obtain ⟨⟨one, -⟩, -⟩ := mem_lead.mp hl
    have := List.length_pos_iff.mp one
    simp [this]
  · obtain ⟨whole, -, tail, fraction, rfl⟩ := Language.mem_mul.mp dotted
    obtain ⟨ds, -, rfl⟩ := mem_fraction.mp fraction
    simp
  · exact (mem_digits.mp digits).1

/-! ### Bytes -/

/-- A character of one byte. -/
def ascii : Language Char := oneOf (·.utf8Size = 1)

theorem mul_le_ascii {l m : Language Char} (hl : l ≤ ascii∗) (hm : m ≤ ascii∗) :
    l * m ≤ ascii∗ :=
  (mul_le_mul' hl hm).trans (kstar_mul_kstar ascii).le

theorem kstar_le_ascii {l : Language Char} (h : l ≤ ascii∗) : l∗ ≤ ascii∗ :=
  (kstar_mono h).trans (kstar_idem ascii).le

theorem pow_le_ascii {l : Language Char} (h : l ≤ ascii∗) (n : Nat) : l ^ n ≤ ascii∗ :=
  pow_le_kstar.trans (kstar_le_ascii h)

theorem digit_le_ascii : digit ≤ ascii∗ := by
  rintro _ ⟨c, rfl, hc⟩
  have upper : c.toNat ≤ 57 := (Char.isDigit_iff_toNat.mp hc).2
  refine mem_oneOf_kstar.mpr (List.forall_mem_singleton.mpr (Char.utf8Size_eq_one_iff.mpr ?_))
  exact UInt32.le_iff_toNat_le.mpr (Nat.le_trans upper (by decide))

/-- Numerals have one byte a character. -/
theorem numeral_le_ascii : numeral ≤ ascii∗ := by
  have digits : digits ≤ ascii∗ := mul_le_ascii digit_le_ascii (kstar_le_ascii digit_le_ascii)
  have fraction : fraction ≤ ascii∗ := by
    refine mul_le_ascii ?_ digits
    rintro _ rfl
    exact mem_oneOf_kstar.mpr (List.forall_mem_singleton.mpr rfl)
  have group : group ≤ ascii∗ := by
    refine mul_le_ascii ?_ (pow_le_ascii digit_le_ascii 3)
    rintro _ rfl
    exact mem_oneOf_kstar.mpr (List.forall_mem_singleton.mpr rfl)
  have lead : digit + digit ^ 2 + digit ^ 3 ≤ ascii∗ :=
    add_le (add_le digit_le_ascii (pow_le_ascii digit_le_ascii 2)) (pow_le_ascii digit_le_ascii 3)
  refine add_le (add_le ?_ (mul_le_ascii (kstar_le_ascii digit_le_ascii) fraction)) digits
  exact mul_le_ascii (mul_le_ascii lead (mul_le_ascii group (kstar_le_ascii group)))
    (add_le one_le_kstar fraction)

end Pattern

/-! ### The longest token -/

theorem isBlank_iff {c : Char} : isBlank c ↔ c ∈ [' ', '\t', '\x0c', '\r', '\n'] := by
  simp [isBlank, or_assoc]

namespace Token

variable {token : Token} {c : Char} {rest front : List Char} {more : Nat}

/-- Where the text of a token stands, a token is read that is at least as long. -/
theorem read?_of_mem (h : front ∈ token.pattern) (starts : front <+: c :: rest) :
    ∃ other more, read? c rest = some (other, more) ∧ front.length ≤ more + 1 := by
  obtain ⟨tail, starts⟩ := starts
  cases token with
  | number text =>
      have length := Pattern.length_le_numeralLength h.2 tail
      rw [starts] at length
      have pos := List.length_pos_iff.mpr (Pattern.ne_nil_of_mem_numeral h.2)
      obtain ⟨n, hn⟩ := Nat.exists_eq_succ_of_ne_zero (Nat.ne_of_gt (Nat.lt_of_lt_of_le pos length))
      exact ⟨_, n, read?_numeral hn, length.trans (Nat.le_of_eq hn)⟩
  | blank =>
      obtain ⟨ne, all⟩ := Pattern.mem_oneOf_mul_kstar.mp h
      obtain ⟨d, front, rfl⟩ := List.exists_cons_of_ne_nil ne
      obtain ⟨rfl, rfl⟩ := List.cons.inj starts
      obtain ⟨hd, all⟩ := List.forall_mem_cons.mp all
      refine ⟨_, _, read?_blank (isBlank_iff.mpr hd) (front ++ tail), Nat.succ_le_succ ?_⟩
      rw [List.takeWhile_append_of_pos fun b hb => isBlank_iff.mpr (all b hb), List.length_append]
      exact Nat.le_add_right _ _
  | doubleStar =>
      obtain rfl : front = ['*', '*'] := h
      obtain ⟨rfl, rfl⟩ := List.cons.inj starts
      exact ⟨.doubleStar, 1, rfl, Nat.le_refl 2⟩
  | star =>
      obtain rfl : front = ['*'] := h
      obtain ⟨rfl, rfl⟩ := List.cons.inj starts
      by_cases double : tail.head? = some '*'
      · exact ⟨.doubleStar, 1, if_pos double, Nat.le_succ 1⟩
      · exact ⟨.star, 0, if_neg double, Nat.le_refl 1⟩
  | _ =>
      obtain rfl : front = [_] := h
      obtain ⟨rfl, rfl⟩ := List.cons.inj starts
      exact ⟨_, 0, rfl, Nat.le_refl 1⟩

/-- What is read is a text of the token. -/
theorem mem_pattern_of_read? (h : read? c rest = some (token, more)) :
    c :: rest.take more ∈ token.pattern := by
  rcases hc : isBlank c with - | -
  · obtain ⟨blank, text⟩ := text_read? hc h
    cases token with
    | number text =>
        obtain ⟨n, hn⟩ := Nat.exists_eq_succ_of_ne_zero (numeralLength_read? h)
        obtain ⟨-, rfl⟩ := Prod.mk.inj (Option.some.inj (h.symm.trans (read?_numeral hn)))
        refine ⟨text.symm, ?_⟩
        have numeral := Pattern.take_numeralLength_mem (numeralLength_read? h)
        rwa [hn, List.take_succ_cons] at numeral
    | blank => exact absurd rfl blank
    | _ => exact text.symm
  · rw [read?_blank hc] at h
    cases h
    rw [← List.prefix_iff_eq_take.mp (List.takeWhile_prefix isBlank)]
    refine Pattern.mem_oneOf_mul_kstar.mpr ⟨nofun, List.forall_mem_cons.mpr ⟨isBlank_iff.mp hc, ?_⟩⟩
    exact fun b hb => isBlank_iff.mp (List.all_eq_true.mp List.all_takeWhile b hb)

theorem ne_nil_of_mem (h : front ∈ token.pattern) : front ≠ [] := by
  cases token with
  | number text => exact Pattern.ne_nil_of_mem_numeral h.2
  | blank => exact (Pattern.mem_oneOf_mul_kstar.mp h).1
  | _ =>
      rw [show front = _ from h]
      decide

/-- The texts of tokens have one byte a character. -/
theorem utf8Size_of_mem (h : front ∈ token.pattern) : ∀ c ∈ front, c.utf8Size = 1 := by
  cases token with
  | number text => exact Pattern.mem_oneOf_kstar.mp (Pattern.numeral_le_ascii h.2)
  | blank =>
      intro c hc
      have blank := (Pattern.mem_oneOf_mul_kstar.mp h).2 c hc
      simp only [List.mem_cons, List.not_mem_nil, or_false] at blank
      rcases blank with rfl | rfl | rfl | rfl | rfl <;> rfl
  | _ =>
      have all : front.all (·.utf8Size = 1) := by
        rw [show front = _ from h]
        decide
      exact fun c hc => of_decide_eq_true (List.all_eq_true.mp all c hc)

/-- **The token that is read is the longest.** -/
theorem longest_read? (h : read? c rest = some (token, more)) :
    token.Longest (c :: rest.take more) (rest.drop more) := by
  refine ⟨mem_pattern_of_read? h, fun other front starts mem => ?_⟩
  rw [List.cons_append, List.take_append_drop] at starts
  obtain ⟨_, _, read, length⟩ := read?_of_mem mem starts
  cases h.symm.trans read
  rwa [List.length_cons, List.length_take, Nat.min_eq_left (read?_le h)]

end Token
end Calculator
