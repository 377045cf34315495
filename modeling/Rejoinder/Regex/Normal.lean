import Rejoinder.Regex.Basic
import Rejoinder.Regex.Tree

/-!
# From trees to steps

A tree is turned into steps from the inside outwards, and every part is simplified as it is built.

* A choice between single characters, or between sets of characters, is one set.
* A choice between choices is one choice.
* What all branches of a choice begin with is matched once, before the choice, if it consists of
  whole steps that remember nothing and every branch has two steps or more.

The last rule changes what is preferred. The branches of `x?y|x?z` are tried for each of the two
readings of `x?` in turn, so a match with `x` and the second branch comes before a match without `x`
and the first.
-/

set_option autoImplicit false

namespace Rejoinder.Regex

/-- Two sequences one after the other. Literals that meet become one. -/
def join : List Step → List Step → List Step
  | [], ts => ts
  | [.literal s], .literal t :: ts => .literal (s ++ t) :: ts
  | s :: ss, ts => s :: join ss ts

/-- The branches with every branch that is only a choice replaced by the branches of that choice. -/
def flatten (branches : List (List Step)) : List (List Step) :=
  branches.flatMap fun
    | [.choice inner] => inner
    | branch => [branch]

/-- The character that a sequence stands for, if it is a literal of one character. -/
def character? : List Step → Option Char
  | [.literal [c]] => some c
  | _ => none

/-- The set that a sequence stands for, if it is a single step of one. -/
def set? : List Step → Option CharSet
  | [.one set] => some set
  | _ => none

/-- The set that a choice stands for, if all its branches are single characters or all are sets. -/
def mergedSet? (branches : List (List Step)) : Option CharSet :=
  match branches.mapM character? with
  | some chars => some (.ofChars chars)
  | none => (branches.mapM set?).map (·.foldl CharSet.union .empty)

/-- What two sequences begin with. -/
def commonLead : List Step → List Step → List Step
  | s :: ss, t :: ts => if s.same t then s :: commonLead ss ts else []
  | _, _ => []

/-- What the branches of a choice begin with, if all of them have two steps or more. -/
def sharedLead : List (List Step) → List Step
  | [] => []
  | b :: bs => if (b :: bs).all (2 ≤ ·.length) then bs.foldl commonLead b else []

/-- The choice between some branches, as they are. -/
def choose (branches : List (List Step)) : List Step :=
  match mergedSet? (flatten branches) with
  | some set => [.ofSet set]
  | none => [.choice (flatten branches)]

/-- The choice between some branches, with what they share put before it. -/
def alternate (branches : List (List Step)) : List Step :=
  match sharedLead (flatten branches) with
  | [] => choose branches
  | lead => join lead (choose ((flatten branches).map (·.drop lead.length)))

/-- The branches of a group as one sequence. -/
def branchesSteps : List (List Step) → List Step
  | [branch] => branch
  | branches => alternate branches

mutual

/-- The steps that a piece stands for. -/
def pieceSteps : Piece → List Step
  | .one cls => [.ofSet cls.set]
  | .many cls lazy => [.many cls.set lazy]
  | .start => [.start]
  | .stop => [.stop]
  | .option piece lazy => [.option (pieceSteps piece) lazy]
  | .group .plain branches => branchesSteps (treeBranches branches)
  | .group (.captured name) branches => [.capture name (branchesSteps (treeBranches branches))]
termination_by structural p => p

/-- The steps that a sequence of pieces stands for. -/
def piecesSteps : List Piece → List Step
  | [] => []
  | p :: ps => join (pieceSteps p) (piecesSteps ps)
termination_by structural ps => ps

/-- The steps that each branch stands for. -/
def treeBranches : List (List Piece) → List (List Step)
  | [] => []
  | b :: bs => piecesSteps b :: treeBranches bs
termination_by structural bs => bs

end

/-- The regular expression that a tree describes. -/
def ofTree (t : Tree) : Regex := ⟨t.groupNames, branchesSteps (treeBranches t)⟩

end Rejoinder.Regex
