import Rejoinder.Regex.CharSet

/-!
# Trees of regular expressions

A regular expression as it is written: a choice between sequences of pieces. A piece consumes
characters of a class, asserts an end of the text, or wraps other pieces: in a group, which may be
remembered and may have a name, or in an option. `lazy` says whether consuming less is preferred to
consuming more.
-/

set_option autoImplicit false

namespace Rejoinder.Regex

/-- A class of characters. -/
inductive CharClass
  /-- One character only. -/
  | exactly (c : Char)
  /-- Every character except the line feed, written `.`. -/
  | notLineFeed
  /-- Every character except the space, written `[^ ]`. -/
  | notSpace
deriving DecidableEq, Repr

/-- The characters of the class. -/
def CharClass.set : CharClass → CharSet
  | .exactly c => .only [c]
  | .notLineFeed => .allBut ['\n']
  | .notSpace => .allBut [' ']

/-- What a pair of brackets is for. -/
inductive GroupKind
  /-- Holding together what it encloses, written `(?:`. -/
  | plain
  /-- Remembering what it matched as well, written `(`, or `(?P<name>` for one with a name. -/
  | captured (name : Option String)
deriving DecidableEq, Repr

/-- The name of the group, if it has one. -/
def GroupKind.name? : GroupKind → Option String
  | .plain => none
  | .captured name => name

/-- A piece of a regular expression. -/
inductive Piece
  /-- One character of a class. -/
  | one (cls : CharClass)
  /-- One or more characters of a class. -/
  | many (cls : CharClass) (lazy : Bool)
  /-- The beginning of the text. -/
  | start
  /-- The end of the text. -/
  | stop
  /-- A piece that may be left out. -/
  | option (piece : Piece) (lazy : Bool)
  /-- A choice between sequences in brackets. -/
  | group (kind : GroupKind) (branches : List (List Piece))
deriving Inhabited, Repr

/-- A regular expression as it is written: its branches. -/
abbrev Tree := List (List Piece)

namespace Tree

/-- A sequence of two or more pieces is one level. -/
def sequenceLevel (pieces : List Piece) : Nat := if 2 ≤ pieces.length then 1 else 0

/-- A choice between two or more branches is one level. -/
def choiceLevel (branches : List (List Piece)) : Nat := if 2 ≤ branches.length then 1 else 0

mutual

/-- How deeply a piece is nested. A group, an option, a repetition and a class in brackets are one
level each. -/
def pieceDepth : Piece → Nat
  | .one .notSpace => 1
  | .one _ => 0
  | .many .notSpace _ => 2
  | .many _ _ => 1
  | .start => 0
  | .stop => 0
  | .option piece _ => pieceDepth piece + 1
  | .group _ branches => choiceLevel branches + branchesDepth branches + 1
termination_by structural p => p

/-- How deeply the deepest piece of a sequence is nested. -/
def piecesDepth : List Piece → Nat
  | [] => 0
  | p :: ps => max (pieceDepth p) (piecesDepth ps)
termination_by structural ps => ps

/-- How deeply the deepest branch is nested. -/
def branchesDepth : List (List Piece) → Nat
  | [] => 0
  | b :: bs => max (sequenceLevel b + piecesDepth b) (branchesDepth bs)
termination_by structural bs => bs

end

/-- How deeply a regular expression is nested. -/
def depth (t : Tree) : Nat := choiceLevel t + branchesDepth t

mutual

/-- The names of the groups of a piece, in the order in which the groups open. -/
def pieceNames : Piece → List String
  | .group kind branches => kind.name?.toList ++ branchesNames branches
  | .option piece _ => pieceNames piece
  | _ => []
termination_by structural p => p

/-- The names of the groups of a sequence. -/
def sequenceNames : List Piece → List String
  | [] => []
  | p :: ps => pieceNames p ++ sequenceNames ps
termination_by structural ps => ps

/-- The names of the groups of a list of branches. -/
def branchesNames : List (List Piece) → List String
  | [] => []
  | b :: bs => sequenceNames b ++ branchesNames bs
termination_by structural bs => bs

end

/-- The names of the groups, in the order in which the groups open. -/
def groupNames (t : Tree) : List String := branchesNames t

end Tree

end Rejoinder.Regex
