import Rejoinder.Pattern.Resolved
import Rejoinder.Text.Number

/-!
# Rendering patterns as regular expressions

A message that is matched has its words separated by single spaces, so required elements are
rendered with a space between them. An optional part brings the space that separates it along:
behind it if no required element stands before it in its sequence, and before it otherwise.

Wildcards, choices and fragments become groups named `match0`, `match1`, … in the order in which
they open. Inside a fragment the groups have no names.

A word is rendered with a backslash before every character that means something in a regular
expression. No word of a parsed pattern has such a character, so there a word is rendered as it is
(`escaped_eq_self`).
-/

set_option autoImplicit false

namespace Rejoinder

namespace ResolvedPattern

/-- The name of the group with a number. -/
def groupName (number : Nat) : Text := ['m', 'a', 't', 'c', 'h'] ++ Text.ofNumber number

/-- The beginning of a group: named with the next number if groups are captured. -/
def openGroup (captured : Bool) (next : Nat) : Text :=
  if captured then ['(', '?', 'P', '<'] ++ groupName next ++ ['>'] else ['(', '?', ':']

/-- The number after the one that the next group takes. -/
def nextGroup (captured : Bool) (next : Nat) : Nat := if captured then next + 1 else next

/-- Whether an element has to be there. -/
def isRequired : ResolvedElement → Bool
  | .optional _ => false
  | _ => true

/-- What separates a required element from those before it: nothing if it is the first one. -/
def separator (started : Bool) : Text := if started then [' '] else []

/-- The characters that mean something in a regular expression. -/
def special : Text :=
  ['\\', '.', '+', '*', '?', '(', ')', '|', '[', ']', '\x7b', '\x7d', '^', '$', '#', '&', '-', '~']

/-- The regular expression of some letters, in which each of them stands for itself. -/
def escaped (letters : Text) : Text :=
  letters.flatMap fun c => if c ∈ special then ['\\', c] else [c]

mutual

/-- The regular expression of an element together with its separator, and the next free group
number. `started` says whether a required element stands before it in its sequence. -/
def renderElement (captured : Bool) (next : Nat) (started : Bool) : ResolvedElement → Text × Nat
  | .word letters => (separator started ++ escaped letters, next)
  | .anyWords =>
    (separator started ++ openGroup captured next ++ ['.', '+', '?', ')'], nextGroup captured next)
  | .anyWord =>
    (separator started ++ openGroup captured next ++ ['[', '^', ' ', ']', '+', ')'],
      nextGroup captured next)
  | .choice branches =>
    let (bodies, after) := renderBranches captured (nextGroup captured next) branches
    (separator started ++ openGroup captured next ++ Text.joinWith '|' bodies ++ [')'], after)
  | .fragment _ body =>
    let (inner, _) := renderSequence false next false body
    (separator started ++ openGroup captured next ++ inner ++ [')'], nextGroup captured next)
  | .optional body =>
    let (inner, after) := renderSequence captured next false body
    if started then (['(', '?', ':', ' '] ++ inner ++ [')', '?'], after)
    else (['(', '?', ':'] ++ inner ++ [' ', ')', '?'], after)
termination_by structural e => e

/-- The regular expression of the rest of a sequence, and the next free group number. -/
def renderSequence (captured : Bool) (next : Nat) (started : Bool) :
    List ResolvedElement → Text × Nat
  | [] => ([], next)
  | e :: es =>
    let (first, middle) := renderElement captured next started e
    let (others, after) := renderSequence captured middle (started || isRequired e) es
    (first ++ others, after)
termination_by structural es => es

/-- The regular expressions of the branches of a choice, and the next free group number. -/
def renderBranches (captured : Bool) (next : Nat) :
    List (List ResolvedElement) → List Text × Nat
  | [] => ([], next)
  | b :: bs =>
    let (first, middle) := renderSequence captured next false b
    let (others, after) := renderBranches captured middle bs
    (first :: others, after)
termination_by structural bs => bs

end

/-- The regular expression of a pattern, without anchors. -/
def body (p : ResolvedPattern) : Text := (renderSequence true 0 false p).1

end ResolvedPattern

/-- The regular expression of a pattern whose references are found among the alternates. -/
def Pattern.render (alternates : Alternates) (p : Pattern) : Except PatternError Text :=
  (p.resolve alternates).map ResolvedPattern.body

end Rejoinder
