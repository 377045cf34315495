import Rejoinder.Regex.Basic
import Rejoinder.Regex.Thread

/-!
# Matching

A regular expression is matched leftmost first: of all matches those that begin earliest, and of
these the one that is met first when every choice tries its alternatives in their order.

The ways through an expression are followed all at once, in order of preference. What can happen
behind a place of the text depends on the place alone, so of several ways to one place only the
most preferred one is kept, and no step is ever taken in more ways than there are places.
-/

set_option autoImplicit false

namespace Rejoinder.Regex

section Advance

/- `whole` is the length of the whole text, by which its beginning is recognised. -/
variable (whole : Nat)

mutual

/-- The ways through a step that begin with some ways to it, in order of preference. -/
def advance : Step → List Thread → List Thread
  | .literal text, ts => ts.filterMap fun t => (t.place.behind? text).map t.to
  | .one set, ts => ts.filterMap fun t => (t.place.after? set).map t.to
  | .many set lazy, ts => spread set lazy ts
  | .start, ts => ts.filter (·.place.left = whole)
  | .stop, ts => ts.filter (·.place.rest.isEmpty)
  | .option body lazy, ts =>
    let around := numbered ts
    let through := advanceSequence body around
    distinct ((if lazy then merge around through else merge through around).map Thread.leave)
  | .choice branches, ts => distinct ((advanceBranches branches (numbered ts)).map Thread.leave)
  | .capture name body, ts =>
    (advanceSequence body (ts.map (Thread.mark name true))).map (Thread.mark name false)
termination_by structural s => s

/-- The ways through a sequence that begin with some ways to it. -/
def advanceSequence : List Step → List Thread → List Thread
  | [], ts => ts
  | _ :: _, [] => []
  | s :: ss, t :: ts => advanceSequence ss (advance s (t :: ts))
termination_by structural ss => ss

/-- The ways through one of several branches that begin with some numbered ways to them. -/
def advanceBranches : List (List Step) → List Thread → List Thread
  | [], _ => []
  | b :: bs, ts => merge (advanceSequence b ts) (advanceBranches bs ts)
termination_by structural bs => bs

end

end Advance

/-- The marks of the first match that begins at this rest of a text or later. -/
def findFrom (whole : Nat) (r : Regex) (t : Text) : Option (List Mark) :=
  match advanceSequence whole r.steps [.start (.ofText t)] with
  | thread :: _ => some thread.marks
  | [] =>
    match t with
    | [] => none
    | _ :: rest => findFrom whole r rest

/-- The marks of the match in a text, if there is one. -/
def find? (r : Regex) (text : Text) : Option (List Mark) := findFrom text.length r text

/-- Whether a text has a match. -/
def isMatch (r : Regex) (text : Text) : Bool := (r.find? text).isSome

/-- The place where a match has entered or left a group, if it took part. -/
def markedPlace? (marks : List Mark) (name : String) (entered : Bool) : Option Place :=
  (marks.find? fun m => m.name = name && m.entered = entered).map Mark.place

/-- The text of a group of a match, if it took part. -/
def captured? (marks : List Mark) (name : String) : Option Text := do
  let first ← markedPlace? marks name true
  let behind ← markedPlace? marks name false
  return first.rest.take (first.left - behind.left)

end Rejoinder.Regex
