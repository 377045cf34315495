import Mathlib
import Rejoinder.Proofs.Outcome
import Rejoinder.Proofs.Table
import Rejoinder.Pattern.Rendering

/-!
# References in patterns

References are expanded depth first and from left to right: a reference is looked up and checked,
and the references of its alternate are expanded in the same way before the next one. What is met on
the way forms a tree (`Met`). A node of it is a place, the list of the positions at which the
references around it and the reference itself stand, and the order of the expansion is the
lexicographic order of places.

A reference is at fault if its name is unknown, if it stands inside an alternate of its own name, or
if its alternate does not parse (`Offends`). Each of these is an error of its own, and the first
reference at fault decides (`FirstOffence`).
-/

set_option autoImplicit false

namespace Rejoinder

namespace Pattern

/-! ## The references of a pattern -/

mutual

/-- The names of the references in an element, in the order of reading. -/
def elementReferences : Element → List String
  | .word _ => []
  | .anyWords => []
  | .anyWord => []
  | .choice branches => branchesReferences branches
  | .optional body => elementsReferences body
  | .reference name => [name]
termination_by structural e => e

/-- The names of the references in some elements, in the order of reading. -/
def elementsReferences : List Element → List String
  | [] => []
  | e :: es => elementReferences e ++ elementsReferences es
termination_by structural es => es

/-- The names of the references in some branches, in the order of reading. -/
def branchesReferences : List (List Element) → List String
  | [] => []
  | b :: bs => elementsReferences b ++ branchesReferences bs
termination_by structural bs => bs

end

/-- The names of the references in a pattern, in the order of reading. -/
def references (p : Pattern) : List String := elementsReferences p

section Replace

variable (expand : String → Except PatternError ResolvedPattern)

mutual

/-- Replacing the references of an element fails as the first reference does that fails. -/
theorem error?_replaceElement : (e : Element) →
    error? (replaceElement expand e) =
      (elementReferences e).findSome? fun name => error? (expand name)
  | .word letters => rfl
  | .anyWords => rfl
  | .anyWord => rfl
  | .choice branches => by
    rw [replaceElement, elementReferences, ← error?_replaceBranches branches, error?_bind_pure]
  | .optional body => by
    rw [replaceElement, elementReferences, ← error?_replaceElements body, error?_bind_pure]
  | .reference name => by
    rw [replaceElement, elementReferences, error?_bind_pure, List.findSome?_singleton]

/-- Replacing the references of a pattern fails as the first reference does that fails. -/
theorem error?_replaceElements : (es : List Element) →
    error? (replaceElements expand es) =
      (elementsReferences es).findSome? fun name => error? (expand name)
  | [] => rfl
  | e :: es => by
    rw [replaceElements, elementsReferences, List.findSome?_append, ← error?_replaceElement e,
      ← error?_replaceElements es, error?_bind_bind_pure]

/-- Resolving branches fails with the first of their references that cannot be expanded. -/
theorem error?_replaceBranches : (bs : List (List Element)) →
    error? (replaceBranches expand bs) =
      (branchesReferences bs).findSome? fun name => error? (expand name)
  | [] => rfl
  | b :: bs => by
    rw [replaceBranches, branchesReferences, List.findSome?_append, ← error?_replaceElements b,
      ← error?_replaceBranches bs, error?_bind_bind_pure]

end

end Replace

/-! ## The tree of the expansion -/

section Expansion

variable (alternates : Alternates)

/-- The pattern that is stored under a name, if the text there is one. -/
def stored? (name : String) : Option Pattern :=
  (alternates.get? name).bind fun source => (parse source).toOption

/-- The alternate of the first name refers to the second one. -/
def Refers (name other : String) : Prop :=
  ∃ fragment, stored? alternates name = some fragment ∧ other ∈ fragment.references

/-- The name can be reached from the pattern through references, and through those of alternates. -/
def Reaches (p : Pattern) (name : String) : Prop :=
  ∃ first ∈ p.references, Relation.ReflTransGen (Refers alternates) first name

/-- What the expansion of some references meets at a place: a reference, and the names of those
around it, the innermost one first. Nothing is met inside a reference whose name stands around it
already, or whose alternate is not there or does not parse. -/
inductive Met : List String → List String → List Nat → String → List String → Prop
  | here {around names : List String} {i : Nat} {name : String} (at_i : names[i]? = some name) :
    Met around names [i] name around
  | inside {around names around' : List String} {i : Nat} {place : List Nat}
    {outer name : String} {fragment : Pattern} (at_i : names[i]? = some outer)
    (new : outer ∉ around) (stored : stored? alternates outer = some fragment)
    (rest : Met (outer :: around) fragment.references place name around') :
    Met around names (i :: place) name around'

/-- The places at which the expansion of some references meets a reference. -/
def places (around names : List String) : Set (List Nat) :=
  {place | ∃ name around', Met alternates around names place name around'}

/-- What is wrong with a reference inside others. -/
inductive Offends (around : List String) (name : String) : PatternError → Prop
  | unknown (missing : alternates.get? name = none) : Offends around name (.unknownAlternate name)
  | recursive (again : name ∈ around) : Offends around name (.badAlternate name .recursive)
  | malformed {source : String} {error : SyntaxError} (stored : alternates.get? name = some source)
    (refused : parse source = .error error) :
    Offends around name (.badAlternate name (.malformed error))

/-- Of all references at fault that the expansion of some references can meet, the one at the first
place has this fault. -/
def FirstOffenceIn (around names : List String) (error : PatternError) : Prop :=
  ∃ place name around', Met alternates around names place name around' ∧
    Offends alternates around' name error ∧
    ∀ place' name' around'' error', Met alternates around names place' name' around'' →
      Offends alternates around'' name' error' → ¬ List.Lex (· < ·) place' place

/-- The first reference at fault in the expansion of a pattern has this fault. -/
def FirstOffence (p : Pattern) (error : PatternError) : Prop :=
  FirstOffenceIn alternates [] p.references error

end Expansion

end Pattern

end Rejoinder
