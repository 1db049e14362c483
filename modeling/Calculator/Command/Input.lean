/-!
# Command — input lines

Bytes are cut into lines at line feeds.  A carriage return in front of a line feed belongs to the
line end; behind the last line feed a line needs no end.

* `inputLines_append`: a line feed separates what is in front of it from what follows.
-/

namespace Calculator

/-- The byte that ends a line. -/
def lineFeed : UInt8 := 10

/-- The byte that may stand in front of a line feed. -/
def carriageReturn : UInt8 := 13

/-- A line, latest byte first, without a carriage return at its end. -/
def dropReturn : List UInt8 → List UInt8
  | [] => []
  | b :: rest => if b = carriageReturn then rest else b :: rest

/-- Cuts bytes into lines, behind the bytes of an open line and the lines found, both latest
first. -/
def cutLines : (current : List UInt8) → (found : List (List UInt8)) → List UInt8 →
    List (List UInt8)
  | [], found, [] => found.reverse
  | b :: current, found, [] => ((b :: current).reverse :: found).reverse
  | current, found, b :: rest =>
    if b = lineFeed then cutLines [] ((dropReturn current).reverse :: found) rest
    else cutLines (b :: current) found rest

/-- The lines of an input, without their ends. -/
def inputLines (bytes : List UInt8) : List (List UInt8) := cutLines [] [] bytes

/-- The text that bytes encode, if they are valid UTF-8. -/
def decodeLine? (bytes : List UInt8) : Option String := String.fromUTF8? ⟨bytes.toArray⟩

theorem cutLines_found (current : List UInt8) (found : List (List UInt8)) (bytes : List UInt8) :
    cutLines current found bytes = found.reverse ++ cutLines current [] bytes := by
  induction bytes generalizing current found with
  | nil => cases current <;> simp [cutLines]
  | cons b rest ih =>
      simp only [cutLines]
      split
      · rw [ih [] (_ :: found), ih [] [_]]
        simp
      · exact ih (b :: current) found

theorem cutLines_append (current bytes rest : List UInt8) :
    cutLines current [] (bytes ++ lineFeed :: rest)
      = cutLines current [] (bytes ++ [lineFeed]) ++ inputLines rest := by
  induction bytes generalizing current with
  | nil =>
      simp only [List.nil_append, cutLines, if_true]
      rw [cutLines_found]
      simp [inputLines]
  | cons b bytes ih =>
      simp only [List.cons_append, cutLines]
      split
      · rw [cutLines_found, ih [], cutLines_found [] [_] (bytes ++ [lineFeed])]
        simp
      · exact ih (b :: current)

/-- A line feed separates what is in front of it from what follows. -/
theorem inputLines_append (bytes rest : List UInt8) :
    inputLines (bytes ++ lineFeed :: rest)
      = inputLines (bytes ++ [lineFeed]) ++ inputLines rest :=
  cutLines_append [] bytes rest

end Calculator
