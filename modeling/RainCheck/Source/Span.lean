import RainCheck.Fault

/-!
# Spans

A `Span` is a range of positions of a text, counted in code points from 0, its end excluded.
* The bounds are in order by construction; `Span.between` is the checked way to build one from two numbers.
* A span may lie outside of the text, and even in front of it.
-/

namespace RainCheck

/-- A range of positions `start ≤ p < stop`. -/
structure Span where
  start : Int
  stop : Int
  start_le_stop : start ≤ stop := by omega
  deriving DecidableEq, Repr

namespace Span

instance : Inhabited Span := ⟨{ start := 0, stop := 0 }⟩

/-- The span with given bounds, which have to be in order. -/
def between (start stop : Int) : Except Fault Span :=
  if h : start ≤ stop then .ok ⟨start, stop, h⟩ else .error .reversedSpan

/-- The span of `length` positions from `start` on. -/
def ofLength (start length : Nat) : Span := ⟨start, start + length, by omega⟩

/-- The number of positions in a span. -/
def length (s : Span) : Nat := (s.stop - s.start).toNat

/-- The smallest span that covers both spans. -/
def join (a b : Span) : Span where
  start := min a.start b.start
  stop := max a.stop b.stop
  start_le_stop := by
    have := a.start_le_stop
    omega

end Span

end RainCheck
