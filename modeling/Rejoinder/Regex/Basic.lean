import Rejoinder.Regex.CharSet
import Rejoinder.Text.Basic

/-!
# Regular expressions

A regular expression is a sequence of steps, each of which consumes characters, asserts an end of
the text, or chooses between sequences, the preferred ones first. Brackets that only hold together
are gone, and so are empty parts; neighbouring literals are one.

Preferences depend on how an expression is put together, so two expressions are the same only if
their steps are. `Step.same` tells this, and holds no two remembered groups to be the same, since
each of them counts on its own.
-/

set_option autoImplicit false

namespace Rejoinder.Regex

/-- A step of a regular expression. -/
inductive Step
  /-- These characters, one after the other. -/
  | literal (text : Text)
  /-- One character of a set. -/
  | one (set : CharSet)
  /-- One or more characters of a set. -/
  | many (set : CharSet) (lazy : Bool)
  /-- The beginning of the text. -/
  | start
  /-- The end of the text. -/
  | stop
  /-- A sequence that may be left out. -/
  | option (body : List Step) (lazy : Bool)
  /-- One of several sequences. -/
  | choice (branches : List (List Step))
  /-- A sequence of which the text is remembered, under a name if there is one. -/
  | capture (name : Option String) (body : List Step)
deriving Inhabited, Repr

/-- One character of a set; a literal if there is only one. -/
def Step.ofSet : CharSet → Step
  | .only [c] => .literal [c]
  | set => .one set

mutual

/-- Whether two steps are the same and remember nothing. -/
def Step.same : Step → Step → Bool
  | .literal s, .literal t => s == t
  | .one s, .one t => s == t
  | .many s m, .many t n => s == t && m == n
  | .start, .start => true
  | .stop, .stop => true
  | .option s m, .option t n => sameSteps s t && m == n
  | .choice bs, .choice cs => sameBranches bs cs
  | _, _ => false
termination_by structural s => s

/-- Whether two sequences are the same and remember nothing. -/
def sameSteps : List Step → List Step → Bool
  | [], [] => true
  | s :: ss, t :: ts => Step.same s t && sameSteps ss ts
  | _, _ => false
termination_by structural ss => ss

/-- Whether two lists of sequences are the same and remember nothing. -/
def sameBranches : List (List Step) → List (List Step) → Bool
  | [], [] => true
  | b :: bs, c :: cs => sameSteps b c && sameBranches bs cs
  | _, _ => false
termination_by structural bs => bs

end

mutual

/-- Steps that are found the same are equal. -/
theorem Step.eq_of_same : (s t : Step) → s.same t = true → s = t
  | .literal s, .literal t, h => by simpa [Step.same] using h
  | .one s, .one t, h => by simpa [Step.same] using h
  | .many s m, .many t n, h => by simpa [Step.same] using h
  | .start, .start, _ => rfl
  | .stop, .stop, _ => rfl
  | .option s m, .option t n, h => by
    simp only [Step.same, Bool.and_eq_true, beq_iff_eq] at h
    rw [eq_of_sameSteps s t h.1, h.2]
  | .choice bs, .choice cs, h => by
    simp only [Step.same] at h
    rw [eq_of_sameBranches bs cs h]

/-- Sequences that are found the same are equal. -/
theorem eq_of_sameSteps : (ss ts : List Step) → sameSteps ss ts = true → ss = ts
  | [], [], _ => rfl
  | s :: ss, t :: ts, h => by
    simp only [sameSteps, Bool.and_eq_true] at h
    rw [Step.eq_of_same s t h.1, eq_of_sameSteps ss ts h.2]

/-- Lists of sequences that are found the same are equal. -/
theorem eq_of_sameBranches : (bs cs : List (List Step)) → sameBranches bs cs = true → bs = cs
  | [], [], _ => rfl
  | b :: bs, c :: cs, h => by
    simp only [sameBranches, Bool.and_eq_true] at h
    rw [eq_of_sameSteps b c h.1, eq_of_sameBranches bs cs h.2]

end

end Regex

/-- A regular expression: what to do at a place of a text, and the names of the groups that it may
remember, in the order in which they open. -/
structure Regex where
  groupNames : List String
  steps : List Regex.Step
deriving Repr

end Rejoinder
