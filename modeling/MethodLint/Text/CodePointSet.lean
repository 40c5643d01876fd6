/-!
Sets of characters, held as ascending and disjoint intervals of code points. Membership is a
bisection: each step halves the span of intervals that is left, so their number bounds the steps.
-/
namespace MethodLint.Text

/-- A set of code points as ascending, disjoint, closed intervals. -/
structure CodePointSet where
  intervals : Array (Nat × Nat)

namespace CodePointSet

/-- Bisects the intervals of index `low ≤ i < high` for the one that holds `n`. -/
def bisect (s : CodePointSet) (n : Nat) : (steps low high : Nat) → Option (Nat × Nat)
  | 0, _, _ => none
  | steps + 1, low, high =>
    if low < high then
      match s.intervals[(low + high) / 2]? with
      | none => none
      | some interval =>
        if n < interval.1 then s.bisect n steps low ((low + high) / 2)
        else if interval.2 < n then s.bisect n steps ((low + high) / 2 + 1) high
        else some interval
    else none

/-- The interval that a character lies in. -/
def find? (s : CodePointSet) (c : Char) : Option (Nat × Nat) :=
  s.bisect c.toNat s.intervals.size 0 s.intervals.size

/-- Membership of a character. -/
def contains (s : CodePointSet) (c : Char) : Bool := (s.find? c).isSome

end CodePointSet

end MethodLint.Text
