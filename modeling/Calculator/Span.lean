/-!
# Lines — spans

Places in a line of text, counted in bytes.  A span is half open; its column is what a
diagnostic shows.

* `Span.start_cover_eq_or`, `Span.stop_cover_eq_or`: what covers two spans starts and stops where
  one of them does.
-/

namespace Calculator

/-- The bytes of a line from `start` up to, and without, `stop`. -/
structure Span where
  start : Nat
  stop : Nat
deriving DecidableEq, Repr, Inhabited

namespace Span

/-- The smallest span that covers both. -/
def cover (a b : Span) : Span := ⟨min a.start b.start, max a.stop b.stop⟩

/-- The column of the first byte; columns count from one. -/
def column (s : Span) : Nat := s.start + 1

@[simp] theorem cover_self (s : Span) : s.cover s = s := by simp [cover]

@[simp] theorem start_cover (a b : Span) : (a.cover b).start = min a.start b.start := rfl

@[simp] theorem stop_cover (a b : Span) : (a.cover b).stop = max a.stop b.stop := rfl

theorem start_cover_eq_or (a b : Span) :
    (a.cover b).start = a.start ∨ (a.cover b).start = b.start := by
  rw [start_cover]
  omega

theorem stop_cover_eq_or (a b : Span) :
    (a.cover b).stop = a.stop ∨ (a.cover b).stop = b.stop := by
  rw [stop_cover]
  omega

end Span
end Calculator
