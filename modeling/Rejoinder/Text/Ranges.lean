/-!
# Tables of code points

A character class is a list of ranges of code points in ascending order, or, where every second
code point belongs to the class, of runs with a step. Both searches stop at the first entry that
lies beyond the code point, so the classes that begin with ASCII are decided for ASCII at once.
-/

set_option autoImplicit false

namespace Rejoinder.Text

/-- Whether a code point lies in one of the ranges, each given by its first and last member. The
ranges ascend and do not overlap. -/
def inRanges : List (Nat × Nat) → Nat → Bool
  | [], _ => false
  | (first, last) :: rest, n =>
    if n < first then false else if n ≤ last then true else inRanges rest n

/-- The code points `first`, `first + step`, `first + 2 * step`, … up to `last`. -/
structure Run where
  first : Nat
  last : Nat
  step : Nat

/-- Whether a code point is a member of the run. -/
def Run.holds (r : Run) (n : Nat) : Bool :=
  r.first ≤ n && n ≤ r.last && (n - r.first) % r.step == 0

/-- Whether a code point is a member of one of the runs. The spans of the runs ascend and do not
overlap. -/
def inRuns : List Run → Nat → Bool
  | [], _ => false
  | r :: rest, n =>
    if n < r.first then false else if n ≤ r.last then r.holds n else inRuns rest n

end Rejoinder.Text
