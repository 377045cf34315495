import Rejoinder.Pattern.Basic

/-!
# Scores

The score of a pattern is the number of words that it certainly asks for: every literal word and
every reference counts one, a choice counts as its cheapest branch, and wildcards and optional
parts count nothing.
-/

set_option autoImplicit false

namespace Rejoinder

namespace Pattern

mutual

/-- The score of an element. -/
def elementScore : Element → Nat
  | .word _ => 1
  | .reference _ => 1
  | .choice branches => (branchScores branches).min?.getD 0
  | .anyWords => 0
  | .anyWord => 0
  | .optional _ => 0
termination_by structural e => e

/-- The sum of the scores of some elements. -/
def totalScore : List Element → Nat
  | [] => 0
  | e :: es => elementScore e + totalScore es
termination_by structural es => es

/-- The scores of the branches of a choice. -/
def branchScores : List (List Element) → List Nat
  | [] => []
  | b :: bs => totalScore b :: branchScores bs
termination_by structural bs => bs

end

/-- The score of a pattern: the sum over its elements. -/
def score (p : Pattern) : Nat := totalScore p

end Pattern

end Rejoinder
