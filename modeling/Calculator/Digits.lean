/-!
# Numbers — decimal digits

Natural numbers as lists of digits, most significant first.  A number is halved at a power of ten
until single digits are left, so that long numbers are written fast.

* `valueOf_digits`: the digits of a number spell it.
* `digits_isDigit`, `head_digits`: they are digits, and only zero starts with a zero.
* `digitLength_le_iff`: a number has at most `k` digits if and only if it is below `10 ^ k`.
-/

namespace Calculator

/-- Powers with natural exponents as the core library has them. -/
@[reducible] def corePow {α : Type} [NatPow α] : Pow α Nat := instPowNat

-- Mathlib brings powers of its own; what runs does without them, whoever imports it
attribute [local instance] corePow

/-- The number that a list of digits spells. -/
def valueOf (cs : List Char) : Nat := cs.foldl (fun n c => 10 * n + (c.toNat - 48)) 0

/-- The last `2 ^ k` digits of a number. -/
def lastDigits : (k n : Nat) → List Char
  | 0, n => [Nat.digitChar (n % 10)]
  | k + 1, n => lastDigits k (n / 10 ^ (2 : Nat) ^ k) ++ lastDigits k (n % 10 ^ (2 : Nat) ^ k)

/-- The number of bits of a number, none for zero. -/
def bitLength (n : Nat) : Nat := if n = 0 then 0 else n.log2 + 1

/-- The digits of a number.  As many are written as its bits call for at most; those in front of
the first that counts are dropped. -/
def digits (n : Nat) : List Char :=
  if n = 0 then ['0'] else (lastDigits ((bitLength n / 3 + 1).log2 + 1) n).dropWhile (· = '0')

/-- The number of digits; zero has one. -/
def digitLength (n : Nat) : Nat := (digits n).length

/-- A bound on the number of digits that is read off the number of bits; `30103 / 100000` is just
above the logarithm of two. -/
def digitEstimate (n : Nat) : Nat := bitLength n * 30103 / 100000 + 1

/-- The number of zeros at the end of the digits. -/
def trailingZeros (n : Nat) : Nat := ((digits n).reverse.takeWhile (· = '0')).length

/-! ### Values -/

theorem foldl_digits (cs : List Char) (n : Nat) :
    cs.foldl (fun n c => 10 * n + (c.toNat - 48)) n = n * 10 ^ cs.length + valueOf cs := by
  induction cs generalizing n with
  | nil => simp [valueOf]
  | cons c cs ih =>
      simp only [valueOf, List.foldl_cons, List.length_cons]
      rw [ih, ih (10 * 0 + (c.toNat - 48)), Nat.pow_succ]
      grind

@[simp] theorem valueOf_nil : valueOf [] = 0 := rfl

theorem valueOf_append (a b : List Char) :
    valueOf (a ++ b) = valueOf a * 10 ^ b.length + valueOf b := by
  rw [valueOf, List.foldl_append, foldl_digits, ← valueOf]

theorem valueOf_cons (c : Char) (cs : List Char) :
    valueOf (c :: cs) = (c.toNat - 48) * 10 ^ cs.length + valueOf cs := by
  rw [valueOf, List.foldl_cons, foldl_digits]
  simp

/-- Zeros in front change nothing. -/
theorem valueOf_dropWhile (cs : List Char) : valueOf (cs.dropWhile (· = '0')) = valueOf cs := by
  induction cs with
  | nil => rfl
  | cons c cs ih =>
      by_cases h : c = '0'
      · subst h
        simp [valueOf_cons, ih]
      · simp [h]

theorem valueOf_lt {cs : List Char} (h : ∀ c ∈ cs, c.isDigit) : valueOf cs < 10 ^ cs.length := by
  induction cs with
  | nil => simp
  | cons c cs ih =>
      have hc : c.toNat - 48 < 10 := by
        have := h c (by simp)
        simp only [Char.isDigit, Bool.and_eq_true, decide_eq_true_eq,
          UInt32.le_iff_toNat_le] at this
        have h₂ : c.val.toNat ≤ 57 := this.2
        show c.val.toNat - 48 < 10
        omega
      have := ih fun d hd => h d (by simp [hd])
      rw [valueOf_cons, List.length_cons, Nat.pow_succ]
      have := Nat.mul_le_mul_right (10 ^ cs.length) (Nat.le_of_lt_succ hc)
      omega

/-! ### Digits -/

@[simp] theorem length_lastDigits (k n : Nat) : (lastDigits k n).length = 2 ^ k := by
  induction k generalizing n with
  | zero => rfl
  | succ k ih => rw [lastDigits, List.length_append, ih, ih, Nat.pow_succ]; omega

theorem toNat_digitChar (n : Nat) (h : n < 10) : (Nat.digitChar n).toNat = 48 + n := by
  rw [Nat.toNat_digitChar_of_lt_ten h, Nat.add_comm]

theorem isDigit_digitChar (n : Nat) (h : n < 10) : (Nat.digitChar n).isDigit := by
  match n, h with
  | 0, _ | 1, _ | 2, _ | 3, _ | 4, _ | 5, _ | 6, _ | 7, _ | 8, _ | 9, _ => rfl

theorem valueOf_lastDigits (k n : Nat) : valueOf (lastDigits k n) = n % 10 ^ (2 : Nat) ^ k := by
  induction k generalizing n with
  | zero =>
      have h : n % 10 < 10 := Nat.mod_lt _ (by decide)
      rw [lastDigits, valueOf_cons, toNat_digitChar _ h]
      simp
  | succ k ih =>
      rw [lastDigits, valueOf_append, ih, ih, length_lastDigits]
      rw [Nat.pow_succ 2 k, Nat.mul_two, Nat.pow_add 10 (2 ^ k) (2 ^ k),
        Nat.mod_mul (x := n), Nat.mod_mod, Nat.mul_comm, Nat.add_comm]

theorem lastDigits_isDigit (k n : Nat) : ∀ c ∈ lastDigits k n, c.isDigit := by
  induction k generalizing n with
  | zero =>
      intro c hc
      obtain rfl : c = _ := by simpa [lastDigits] using hc
      exact isDigit_digitChar _ (Nat.mod_lt _ (by decide))
  | succ k ih =>
      intro c hc
      rcases List.mem_append.1 hc with hc | hc
      · exact ih _ c hc
      · exact ih _ c hc

theorem lt_two_pow_bitLength (n : Nat) : n < 2 ^ bitLength n := by
  unfold bitLength
  split
  · simp_all
  · exact Nat.lt_log2_self

/-- A number other than zero reaches the power of two one below. -/
theorem two_pow_le {n : Nat} (hn : n ≠ 0) : 2 ^ (bitLength n - 1) ≤ n := by
  rw [bitLength, if_neg hn, Nat.add_sub_cancel]
  exact Nat.log2_self_le hn

theorem lt_ten_pow (n : Nat) : n < 10 ^ (2 : Nat) ^ ((bitLength n / 3 + 1).log2 + 1) := by
  have h : bitLength n ≤ 3 * (bitLength n / 3 + 1) := by omega
  calc n < 2 ^ bitLength n := lt_two_pow_bitLength n
    _ ≤ 2 ^ (3 * (bitLength n / 3 + 1)) := Nat.pow_le_pow_right (by decide) h
    _ = 8 ^ (bitLength n / 3 + 1) := by rw [Nat.pow_mul]
    _ ≤ 10 ^ (bitLength n / 3 + 1) := Nat.pow_le_pow_left (by decide) _
    _ ≤ 10 ^ 2 ^ ((bitLength n / 3 + 1).log2 + 1) :=
        Nat.pow_le_pow_right (by decide) (Nat.le_of_lt Nat.lt_log2_self)

/-- The digits of a number spell it. -/
theorem valueOf_digits (n : Nat) : valueOf (digits n) = n := by
  unfold digits
  split
  · simp_all [valueOf]
  · rw [valueOf_dropWhile, valueOf_lastDigits, Nat.mod_eq_of_lt (lt_ten_pow n)]

theorem digits_isDigit (n : Nat) : ∀ c ∈ digits n, c.isDigit := by
  intro c hc
  unfold digits at hc
  split at hc
  · obtain rfl : c = '0' := by simpa using hc
    rfl
  · exact lastDigits_isDigit _ n c ((List.dropWhile_suffix _).subset hc)

theorem digits_ne_nil (n : Nat) : digits n ≠ [] := by
  intro h
  by_cases hn : n = 0
  · simp [digits, hn] at h
  · exact hn (by rw [← valueOf_digits n, h]; rfl)

@[simp] theorem digits_zero : digits 0 = ['0'] := rfl

/-- Only zero starts with a zero. -/
theorem head_digits {n : Nat} (hn : n ≠ 0) : (digits n).head? ≠ some '0' := by
  rw [digits, if_neg hn]
  intro h
  cases hd : (lastDigits ((bitLength n / 3 + 1).log2 + 1) n).dropWhile (· = '0') with
  | nil => simp [hd] at h
  | cons c rest =>
      rw [hd] at h
      obtain rfl : c = '0' := by simpa using h
      have := List.head_dropWhile_not (fun c : Char => decide (c = '0'))
        (l := lastDigits ((bitLength n / 3 + 1).log2 + 1) n) (by simp [hd])
      simp [hd] at this

/-! ### Counting -/

theorem one_le_digitLength (n : Nat) : 1 ≤ digitLength n :=
  List.length_pos_iff.2 (digits_ne_nil n)

/-- A number is below the power of ten of its digit count. -/
theorem lt_ten_pow_digitLength (n : Nat) : n < 10 ^ digitLength n := by
  have := valueOf_lt (digits_isDigit n)
  rwa [valueOf_digits] at this

/-- A number other than zero reaches the power of ten one below. -/
theorem ten_pow_le {n : Nat} (hn : n ≠ 0) : 10 ^ (digitLength n - 1) ≤ n := by
  have head := head_digits hn
  have all := digits_isDigit n
  have value := valueOf_digits n
  unfold digitLength
  cases h : digits n with
  | nil => exact absurd h (digits_ne_nil n)
  | cons c rest =>
      rw [h] at head all value
      rw [valueOf_cons] at value
      have hc : c.isDigit := all c (by simp)
      have h0 : c.toNat ≠ 48 := fun h0 => head (by
        rw [List.head?_cons, Option.some.injEq]
        exact Char.toNat_inj.1 h0)
      have h1 : 48 ≤ c.toNat := by
        simp only [Char.isDigit, Bool.and_eq_true, decide_eq_true_eq, UInt32.le_iff_toNat_le] at hc
        exact hc.1
      have := Nat.mul_le_mul_right (10 ^ rest.length) (show 1 ≤ c.toNat - 48 by omega)
      simp only [List.length_cons, Nat.add_sub_cancel]
      omega

/-- A number has at most `k` digits if and only if it is below `10 ^ k`. -/
theorem digitLength_le_iff {n k : Nat} (hk : 1 ≤ k) : digitLength n ≤ k ↔ n < 10 ^ k := by
  constructor
  · intro h
    exact Nat.lt_of_lt_of_le (lt_ten_pow_digitLength n) (Nat.pow_le_pow_right (by decide) h)
  · intro h
    by_cases hn : n = 0
    · subst hn; exact hk
    · have := Nat.lt_of_le_of_lt (ten_pow_le hn) h
      have := (Nat.pow_lt_pow_iff_right (by decide : 1 < 10)).1 this
      omega

end Calculator
