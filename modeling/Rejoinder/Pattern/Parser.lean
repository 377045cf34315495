import Rejoinder.Pattern.Basic
import Rejoinder.Pattern.Token

/-!
# Parsing patterns

The tokens of a pattern are read one after the other. An open bracket is set aside with the part of
the sequence that stands before it, and the closing bracket adds what was read in between to that
part as one element. A sequence that ends has to hold at least one required element; if it does
not, the fault lies where the sequence begins.
-/

set_option autoImplicit false

namespace Rejoinder

namespace Pattern

/-- A sequence of which the end has not been read: the offset of its first token, once there is
one, and the elements read so far, the last one first. -/
structure Unfinished where
  start : Option Nat
  elements : List Element

/-- A bracket of which the end has not been read, with the sequence in which it stands. -/
inductive OpenBracket
  /-- A choice, with the branches that have ended, the last one first. -/
  | choice (before : Unfinished) (branches : List Pattern)
  | optional (before : Unfinished)

/-- How far the parser has come: the innermost sequence and the brackets around it, innermost
first. -/
structure ParseState where
  current : Unfinished
  brackets : List OpenBracket

/-- A sequence of which nothing has been read. -/
def Unfinished.empty : Unfinished := ⟨none, []⟩

/-- The sequence begins at this offset, unless it began before. -/
def Unfinished.startAt (position : Nat) (s : Unfinished) : Unfinished :=
  ⟨some (s.start.getD position), s.elements⟩

/-- The sequence with one more element. -/
def Unfinished.push (e : Element) (s : Unfinished) : Unfinished := ⟨s.start, e :: s.elements⟩

/-- The pattern that the sequence is, now that it ends at this offset. -/
def Unfinished.finish (position : Nat) (s : Unfinished) : Except SyntaxFault Pattern :=
  if s.elements.isEmpty then .error ⟨s.start.getD position, .emptySequence⟩
  else if s.elements.any Element.isRequired then .ok s.elements.reverse
  else .error ⟨s.start.getD position, .nothingRequired⟩

/-- Where the parser begins. -/
def ParseState.start : ParseState := ⟨.empty, []⟩

/-- One token is read. -/
def ParseState.step (s : ParseState) (l : Lexeme) : Except SyntaxFault ParseState :=
  let current := s.current.startAt l.position
  match l.token, s.brackets with
  | .word letters, brackets => .ok ⟨current.push (.word letters), brackets⟩
  | .star, brackets => .ok ⟨current.push .anyWords, brackets⟩
  | .underscore, brackets => .ok ⟨current.push .anyWord, brackets⟩
  | .reference name, brackets => .ok ⟨current.push (.reference name), brackets⟩
  | .openChoice, brackets => .ok ⟨.empty, .choice current [] :: brackets⟩
  | .openOptional, brackets => .ok ⟨.empty, .optional current :: brackets⟩
  | .bar, .choice before branches :: outer => do
    let branch ← current.finish l.position
    return ⟨.empty, .choice before (branch :: branches) :: outer⟩
  | .closeChoice, .choice before branches :: outer => do
    let branch ← current.finish l.position
    return ⟨before.push (.choice (branch :: branches).reverse), outer⟩
  | .closeOptional, .optional before :: outer => do
    let body ← current.finish l.position
    return ⟨before.push (.optional body), outer⟩
  | _, _ => .error ⟨l.position, .unbalanced⟩

/-- The pattern that has been read, now that the text ends at this offset. -/
def ParseState.finish (position : Nat) (s : ParseState) : Except SyntaxFault Pattern :=
  if s.brackets.isEmpty then s.current.finish position else .error ⟨position, .unexpectedEnd⟩

/-- The pattern that a list of tokens is, in a text that ends at this offset. -/
def ofTokens? (position : Nat) (lexemes : List Lexeme) : Except SyntaxFault Pattern := do
  (← lexemes.foldlM ParseState.step .start).finish position

/-- The pattern that a text is, or the first fault in it. -/
def ofText? (text : Text) : Except SyntaxFault Pattern := do
  ofTokens? (Text.utf8Size text) (← Token.scan 0 text)

/-- The pattern that a string is. -/
def parse (source : String) : Except SyntaxError Pattern :=
  (ofText? source.toList).mapError (⟨source, ·⟩)

end Pattern

end Rejoinder
