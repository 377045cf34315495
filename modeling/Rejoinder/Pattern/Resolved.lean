import Rejoinder.Pattern.Parser

/-!
# Resolved patterns

A pattern becomes self-contained when every reference is replaced by the pattern of the alternate
that it names. Alternates may refer to other alternates, but never, on any way, to themselves.
-/

set_option autoImplicit false

namespace Rejoinder

/-- An element of a pattern without references. -/
inductive ResolvedElement
  | word (letters : Text)
  | anyWords
  | anyWord
  | choice (branches : List (List ResolvedElement))
  | optional (body : List ResolvedElement)
  /-- The pattern of an alternate, in the place of a reference to it. -/
  | fragment (name : String) (body : List ResolvedElement)
deriving Inhabited, Repr

/-- A pattern without references. -/
abbrev ResolvedPattern := List ResolvedElement

namespace Pattern

section Replace

variable (expand : String → Except PatternError ResolvedPattern)

mutual

/-- An element with `expand` applied to its references, from left to right. -/
def replaceElement : Element → Except PatternError ResolvedElement
  | .word letters => .ok (.word letters)
  | .anyWords => .ok .anyWords
  | .anyWord => .ok .anyWord
  | .choice branches => do return .choice (← replaceBranches branches)
  | .optional body => do return .optional (← replaceElements body)
  | .reference name => do return .fragment name (← expand name)
termination_by structural e => e

/-- A pattern with `expand` applied to its references, from left to right. -/
def replaceElements : List Element → Except PatternError (List ResolvedElement)
  | [] => .ok []
  | e :: es => do
    let first ← replaceElement e
    return first :: (← replaceElements es)
termination_by structural es => es

/-- The branches of a choice with `expand` applied to their references, from left to right. -/
def replaceBranches : List (List Element) → Except PatternError (List (List ResolvedElement))
  | [] => .ok []
  | b :: bs => do
    let first ← replaceElements b
    return first :: (← replaceBranches bs)
termination_by structural bs => bs

end

end Replace

/-- The pattern of an alternate that is not among those being replaced already. -/
def fragment? (alternates : Alternates) (expanding : List String) (name : String) :
    Except PatternError Pattern :=
  match alternates.get? name with
  | none => .error (.unknownAlternate name)
  | some source =>
    if name ∈ expanding then .error (.badAlternate name .recursive)
    else (parse source).mapError fun e => .badAlternate name (.malformed e)

/-- The resolved pattern of an alternate, inside the alternates being replaced. Since none of them
may come back, they are never more than there are names; `budget` counts those that are left. -/
def expandReference (alternates : Alternates) :
    (budget : Nat) → (expanding : List String) → String → Except PatternError ResolvedPattern
  | 0, _, name => .error (.badAlternate name .recursive)
  | budget + 1, expanding, name => do
    let body ← fragment? alternates expanding name
    replaceElements (expandReference alternates budget (name :: expanding)) body

/-- The pattern with every reference replaced, or what is wrong with the first reference, in the
order of reading, that cannot be. -/
def resolve (alternates : Alternates) (p : Pattern) : Except PatternError ResolvedPattern :=
  replaceElements (expandReference alternates (alternates.size + 1) []) p

end Pattern

end Rejoinder
