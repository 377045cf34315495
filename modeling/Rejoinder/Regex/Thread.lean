import Rejoinder.Regex.Place

/-!
# Ways through an expression

A way through a part of a regular expression is known by the place of the text that it has reached
and by the marks of the groups that it has passed. Of several ways to one place, `distinct` keeps
the first one only.

`spread` lets ways go on by one or more characters. A way that comes to a place where an earlier one
has been would only follow it from there, so it stops, and all ways together take no more steps than
there are places.

Where several ways come to a choice, everything that the first of them leads to is preferred to what
the second one leads to. So the ways are numbered before they go through the branches, and `merge`
puts the results in the order of the numbers; of equal numbers the earlier branch comes first.
-/

set_option autoImplicit false

namespace Rejoinder.Regex

/-- Where a way has entered or left a group that has a name. -/
structure Mark where
  name : String
  entered : Bool
  place : Place

/-- A way through a part of an expression: the place it has reached, the marks of the groups it has
passed, the last one first, and its numbers in the choices it is in, the innermost one first. -/
structure Thread where
  place : Place
  marks : List Mark
  numbers : List Nat

/-- The way to the beginning of an expression. -/
def Thread.start (p : Place) : Thread := ⟨p, [], []⟩

/-- The way that goes on to another place. -/
def Thread.to (t : Thread) (p : Place) : Thread := ⟨p, t.marks, t.numbers⟩

/-- The way with a mark of a group at the place it has reached, if the group has a name. -/
def Thread.mark (name : Option String) (entered : Bool) (t : Thread) : Thread :=
  match name with
  | none => t
  | some name => ⟨t.place, ⟨name, entered, t.place⟩ :: t.marks, t.numbers⟩

/-- The way with a number in one more choice. -/
def Thread.enter (t : Thread) (number : Nat) : Thread := ⟨t.place, t.marks, number :: t.numbers⟩

/-- The way without its number in the innermost choice. -/
def Thread.leave (t : Thread) : Thread := ⟨t.place, t.marks, t.numbers.tail⟩

/-- The number of the way in the innermost choice. -/
def Thread.number (t : Thread) : Nat := t.numbers.headD 0

/-- Some ways with their numbers in a choice. -/
def numbered (ts : List Thread) : List Thread := ts.zipIdx.map fun (t, number) => t.enter number

/-- Two lists of ways in the order of their numbers. Of equal numbers those of the first list come
first. -/
def merge (ts us : List Thread) : List Thread := ts.merge us fun t u => t.number ≤ u.number

/-- The first way to each place that has not been reached before. -/
def distinctFrom (reached : Reached) : List Thread → List Thread
  | [] => []
  | t :: ts =>
    if reached.holds t.place.left then distinctFrom reached ts
    else t :: distinctFrom (reached.add t.place) ts

/-- The first way to each place. -/
def distinct : List Thread → List Thread
  | [] => []
  | [t] => [t]
  | ts => distinctFrom (.none (ts.map Thread.place)) ts

/-- The ways that go on from some ways by one or more characters of a set, to places that have not
been reached before. -/
def spreadFrom (set : CharSet) (lazy : Bool) (reached : Reached) : List Thread → List Thread
  | [] => []
  | t :: ts =>
    let near := placesAfter set reached t.place.rest t.place.left t.place.left_eq
    (if lazy then near else near.reverse).map t.to ++
      spreadFrom set lazy (near.foldl Reached.add reached) ts

/-- The first way to each place behind one or more characters of a set. -/
def spread (set : CharSet) (lazy : Bool) (ts : List Thread) : List Thread :=
  spreadFrom set lazy (.none (ts.map Thread.place)) ts

/-- Putting ways in order loses none and adds none. -/
theorem mem_merge {ts us : List Thread} {t : Thread} : t ∈ merge ts us ↔ t ∈ ts ∨ t ∈ us :=
  List.mem_merge

end Rejoinder.Regex
