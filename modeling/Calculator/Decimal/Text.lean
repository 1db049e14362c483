import Calculator.Decimal

/-!
# Numbers — decimals as text

A decimal is written in positional notation, without zeros at the end of its fraction and never
with an exponent.  Any text of digits with an optional sign and fraction is read, and the zeros it
ends in are kept in the scale.

* `ofUnsigned?_eq_some`: what is read is spelled by the digits, whatever their point.
* `filter_separate`: separators are added to the digits, and nothing else changes.
-/

namespace Calculator

/-- A text that is not a decimal number. -/
structure NotDecimal where
  text : String
deriving DecidableEq, Repr

/-- The error in words. -/
def NotDecimal.message (e : NotDecimal) : String := s!"'{e.text}' is not a decimal number"

namespace Decimal

/-! ### Writing -/

/-- The digits of the normal form in front of the point and behind it. -/
def places (d : Decimal) : List Char × List Char :=
  let n := d.normalForm
  let counted := digits n.significand.natAbs
  let padded := List.replicate (n.scale + 1 - counted.length) '0' ++ counted
  padded.splitAt (padded.length - n.scale)

/-- Sign, whole part and fraction put together; an empty fraction has no point. -/
def assemble (negative : Bool) (whole fraction : List Char) : String :=
  String.ofList ((if negative then ['-'] else []) ++ whole
    ++ (if fraction.isEmpty then [] else '.' :: fraction))

/-- The decimal in positional notation. -/
def text (d : Decimal) : String := assemble d.isNegative d.places.1 d.places.2

/-- The digits of a whole part of `bytes` bytes with a separator in front of every third from the
right. -/
def separate (bytes : Nat) (cs : List Char) : List Char :=
  cs.zipIdx.flatMap fun (c, i) =>
    if 0 < i ∧ (bytes - i) % 3 = 0 then [',', c] else [c]

/-- A text with separators as in the whole part of a number. -/
def separateThousands (text : String) : String :=
  String.ofList (separate text.utf8ByteSize text.toList)

/-- The decimal in positional notation with separators in its whole part. -/
def grouped (d : Decimal) : String :=
  assemble d.isNegative (separate d.places.1.length d.places.1) d.places.2

/-! ### Reading -/

/-- Reads digits with an optional point; a point has a digit behind it. -/
def ofUnsigned? (cs : List Char) : Option Decimal :=
  let whole := cs.takeWhile (· ≠ '.')
  let point := cs.dropWhile (· ≠ '.')
  let fraction := point.drop 1
  if h : fraction.length ≤ maxScale then
    if point.length ≠ 1 ∧ whole ++ fraction ≠ [] ∧ (whole ++ fraction).all Char.isDigit then
      some ⟨valueOf (whole ++ fraction), fraction.length, h⟩
    else none
  else none

/-- Reads a decimal with an optional minus sign. -/
def ofChars? : List Char → Option Decimal
  | '-' :: cs => (ofUnsigned? cs).map neg
  | cs => ofUnsigned? cs

/-- Reads a decimal in positional notation. -/
def ofText (text : String) : Except NotDecimal Decimal :=
  match ofChars? text.toList with
  | some d => .ok d
  | none => .error ⟨text⟩

/-- Reads a decimal with separators in its whole part, which neither starts nor ends with one. -/
def ofGrouped (text : String) : Except NotDecimal Decimal :=
  let whole := text.toList.takeWhile (· ≠ '.')
  let point := text.toList.dropWhile (· ≠ '.')
  if point.contains ',' ∨ whole.head? = some ',' ∨ whole.getLast? = some ',' then .error ⟨text⟩
  else
    match ofChars? (whole.filter (· ≠ ',') ++ point) with
    | some d => .ok d
    | none => .error ⟨text⟩

/-! ### Laws -/

/-- What is read has the scale of its fraction and is spelled by all its digits. -/
theorem ofUnsigned?_eq_some {cs : List Char} {d : Decimal} (h : ofUnsigned? cs = some d) :
    d.scale = (cs.dropWhile (· ≠ '.')).length - 1 ∧
      d.significand = valueOf (cs.takeWhile (· ≠ '.') ++ (cs.dropWhile (· ≠ '.')).drop 1) := by
  unfold ofUnsigned? at h
  dsimp only at h
  split at h
  · split at h
    · cases h
      simp
    · cases h
  · cases h

/-- Taking the separators out again gives back the digits. -/
theorem filter_separate (bytes : Nat) (cs : List Char) (h : ',' ∉ cs) :
    (separate bytes cs).filter (· ≠ ',') = cs := by
  have go (k : Nat) : ((cs.zipIdx k).flatMap fun (c, i) =>
      if 0 < i ∧ (bytes - i) % 3 = 0 then [',', c] else [c]).filter (· ≠ ',') = cs := by
    induction cs generalizing k with
    | nil => rfl
    | cons c cs ih =>
        have hc : c ≠ ',' := fun hc => h (by simp [hc])
        rw [List.zipIdx_cons, List.flatMap_cons, List.filter_append,
          ih (fun hm => h (List.mem_cons_of_mem c hm)) (k + 1)]
        dsimp only
        split <;> simp [hc]
  exact go 0

end Decimal
end Calculator
