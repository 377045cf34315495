import Rejoinder.Regex.Basic
import Rejoinder.Text.Utf8

/-!
# Sizes

A regular expression is matched by an automaton that reads bytes, and a second one reads backwards.
The size of an automaton is the number of bytes that its states take. It is known before the
automaton is built, and an expression with a larger automaton than `sizeLimit` is not usable.

A state takes `stateSize` bytes. A state that tells ranges of bytes apart takes `rangeSize` more for
each of them, and one from which several ways lead on takes `waySize` more for each way.
-/

set_option autoImplicit false

namespace Rejoinder.Regex

/-- In which direction an automaton reads. -/
inductive Direction
  | forward
  | backward
deriving DecidableEq, Repr

/-- How large an automaton may be. -/
def sizeLimit : Nat := 10485760

/-- The size of a state. -/
def stateSize : Nat := 32

/-- What a state takes for each range of bytes that it tells apart from others. -/
def rangeSize : Nat := 8

/-- What a state takes for each of the ways that lead on from it. -/
def waySize : Nat := 4

/-- The size of a state that accepts some ranges of bytes, each with a way of its own. -/
def rangesSize (count : Nat) : Nat := stateSize + rangeSize * count

/-- The size of a state from which several ways lead on without reading. -/
def forkSize (count : Nat) : Nat := stateSize + waySize * count

/-- The size of the states for a literal: one for each byte. -/
def literalSize (text : Text) : Nat := stateSize * Text.utf8Size text

/-- The sum of some sizes. -/
def total (sizes : List Nat) : Nat := sizes.foldr (· + ·) 0

/-- The different members with which some sequences begin. -/
def firstMembers {α : Type} [BEq α] (sequences : List (List α)) : List α :=
  (sequences.filterMap List.head?).eraseDups

/-- What follows a member in the sequences that begin with it. -/
def followers {α : Type} [BEq α] (member : α) (sequences : List (List α)) : List (List α) :=
  sequences.filterMap fun
    | [] => none
    | first :: rest => if first == member then some rest else none

/-- What can follow after none, one, two, … members of some sequences, for all ways in which these
begin, as long as they do not end. `depth` is the length of the longest sequence. -/
def continuations {α : Type} [BEq α] (depth : Nat) (sequences : List (List α)) :
    List (List (List α)) :=
  match depth with
  | 0 => []
  | depth + 1 =>
    match firstMembers sequences with
    | [] => []
    | members => sequences :: members.flatMap fun m => continuations depth (followers m sequences)
termination_by structural depth

/-- The size of the states for the byte sequences of a set. Forward, states behind which the same
can follow are one. Backward, each sequence is read on its own, but states with the same bytes left
to read are one. -/
def sequencesSize (sequences : List (List Text.ByteRange)) : Direction → Nat
  | .forward =>
    let states := (continuations 4 sequences).eraseDups
    stateSize + total (states.map fun state => rangesSize (firstMembers state).length)
  | .backward =>
    let leads := sequences.flatMap fun s => (List.range s.length).map fun n => s.take (n + 1)
    forkSize sequences.length + stateSize + stateSize * leads.eraseDups.length

/-- The size of the states for one character of a set. -/
def setSize (direction : Direction) (set : CharSet) : Nat :=
  match set with
  | .only [c] => literalSize [c]
  | set =>
    if set.ranges.all (·.2 < 0x80) then stateSize + rangesSize set.ranges.length
    else sequencesSize (set.ranges.flatMap fun (lo, hi) => Text.utf8Ranges lo hi) direction

/-- The text of a sequence that is only a literal. -/
def literal? : List Step → Option Text
  | [.literal text] => some text
  | _ => none

/-- A list cut at its empty members, of which those at the beginning count as one. -/
def cutAtEmpty {α : Type} (texts : List (List α)) : List (List (List α)) :=
  let behind := texts.dropWhile List.isEmpty
  let pieces := behind.foldr (fun text pieces =>
    match text, pieces with
    | [], pieces => [] :: pieces
    | text, [] => [[text]]
    | text, piece :: pieces => (text :: piece) :: pieces) [[]]
  if behind.length < texts.length then [] :: pieces else pieces

/-- The size of the states for what is left of the texts of a choice. Texts that go on alike share
their states, unless one that ends here stands between them. -/
def trieSize (depth : Nat) (texts : List (List Nat)) : Nat :=
  match depth with
  | 0 => 0
  | depth + 1 =>
    let pieces := cutAtEmpty texts
    let nonempty := pieces.filter fun piece => !(firstMembers piece).isEmpty
    if nonempty.isEmpty then 0
    else
      let sizes := nonempty.map fun piece =>
        let members := firstMembers piece
        (if members.length = 1 then stateSize else rangesSize members.length) +
          total (members.map fun m => trieSize depth (followers m piece))
      forkSize (nonempty.length + pieces.length - 1) + total sizes
termination_by structural depth

/-- The size of the states for a choice between texts. -/
def textsSize (direction : Direction) (texts : List Text) : Nat :=
  let bytes := texts.map fun text =>
    match direction with
    | .forward => Text.utf8Bytes text
    | .backward => (Text.utf8Bytes text).reverse
  stateSize + trieSize (bytes.foldl (fun n b => max n b.length) 0) bytes

mutual

/-- The sets of which a step accepts members. -/
def stepSets : Step → List CharSet
  | .one set => [set]
  | .many set _ => [set]
  | .option body _ => sequenceSets body
  | .choice branches => branchesSets branches
  | .capture _ body => sequenceSets body
  | _ => []
termination_by structural s => s

/-- The sets of which a sequence accepts members. -/
def sequenceSets : List Step → List CharSet
  | [] => []
  | s :: ss => stepSets s ++ sequenceSets ss
termination_by structural ss => ss

/-- The sets of which some branches accept members. -/
def branchesSets : List (List Step) → List CharSet
  | [] => []
  | b :: bs => sequenceSets b ++ branchesSets bs
termination_by structural bs => bs

end

section Size

variable (direction : Direction) (sizeOf : CharSet → Nat)

mutual

/-- The size of the states for a step, given the sizes for its sets. -/
def stepSize : Step → Nat
  | .literal text => literalSize text
  | .one set => sizeOf set
  | .many set _ => sizeOf set + forkSize 2
  | .start => stateSize
  | .stop => stateSize
  | .option body _ => sequenceSize body + forkSize 2 + stateSize
  | .choice branches =>
    match branches.mapM literal? with
    | some texts => textsSize direction texts
    | none => branchesSize branches + forkSize branches.length + stateSize
  | .capture _ body =>
    match direction with
    | .forward => sequenceSize body + 2 * stateSize
    | .backward => sequenceSize body
termination_by structural s => s

/-- The size of the states for a sequence; an empty one has a state as well. -/
def sequenceSize : List Step → Nat
  | [] => stateSize
  | [s] => stepSize s
  | s :: ss => stepSize s + sequenceSize ss
termination_by structural ss => ss

/-- The size of the states for all branches of a choice. -/
def branchesSize : List (List Step) → Nat
  | [] => 0
  | b :: bs => sequenceSize b + branchesSize bs
termination_by structural bs => bs

end

end Size

/-- The sizes of the states for one character of each of some sets. -/
def setSizes (direction : Direction) (sets : List CharSet) : List (CharSet × Nat) :=
  sets.eraseDups.map fun set => (set, setSize direction set)

/-- The size of the automaton for an expression. It begins with a state, and ends with one; forward,
it remembers where the match begins and ends. -/
def size (direction : Direction) (r : Regex) : Nat :=
  let sizes := setSizes direction (sequenceSets r.steps)
  let steps := sequenceSize direction (fun set => (sizes.lookup set).getD 0) r.steps
  match direction with
  | .forward => steps + 4 * stateSize
  | .backward => steps + 2 * stateSize

end Rejoinder.Regex
