import Calculator.Digits

/-!
# Numbers — integers in words

Which integers fit into a machine word.

* `toUInt32?_eq_some_iff`, `toInt64?_eq_some_iff`: a word is found if and only if it has the value.
-/

namespace Calculator

attribute [local instance] corePow

/-- The signed word of 64 bits with the value `n`. -/
def toInt64? (n : Int) : Option Int64 :=
  if -2 ^ (63 : Nat) ≤ n ∧ n < 2 ^ (63 : Nat) then some (.ofInt n) else none

/-- The word of 32 bits with the value `n`. -/
def toUInt32? (n : Int) : Option UInt32 :=
  if 0 ≤ n ∧ n < 2 ^ (32 : Nat) then some (.ofNat n.toNat) else none

/-- The word of 64 bits with the value `n`. -/
def toUInt64? (n : Int) : Option UInt64 :=
  if 0 ≤ n ∧ n < 2 ^ (64 : Nat) then some (.ofNat n.toNat) else none

theorem toUInt32?_eq_some_iff {n : Int} {w : UInt32} : toUInt32? n = some w ↔ n = w.toNat := by
  unfold toUInt32?
  have := w.toNat_lt
  constructor
  · intro h
    split at h
    · cases h
      rw [UInt32.toNat_ofNat']
      omega
    · cases h
  · rintro rfl
    rw [if_pos (by omega), Option.some.injEq, ← UInt32.toNat_inj, UInt32.toNat_ofNat']
    omega

theorem toInt64?_eq_some_iff {n : Int} {w : Int64} : toInt64? n = some w ↔ n = w.toInt := by
  unfold toInt64?
  have := w.le_toInt
  have := w.toInt_lt
  constructor
  · intro h
    split at h
    · cases h
      rw [Int64.toInt_ofInt_of_le] <;> omega
    · cases h
  · rintro rfl
    rw [if_pos (by omega), Int64.ofInt_toInt]

end Calculator
