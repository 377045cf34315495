import Rejoinder.Regex.CharSet
import Rejoinder.Text.Basic

/-!
# Places in a text

A place is known by what follows it, and told apart from the other places of the same text by the
number of characters that are left. `Reached` keeps places by this number.
-/

set_option autoImplicit false

namespace Rejoinder.Regex

/-- A place in a text: what follows it, and how many characters that is. -/
structure Place where
  rest : Text
  left : Nat
  left_eq : left = rest.length

/-- The beginning of a text. -/
def Place.ofText (t : Text) : Place := ⟨t, t.length, rfl⟩

/-- The place behind the next character, if that belongs to a set. -/
def Place.after? (set : CharSet) : Place → Option Place
  | ⟨[], _, _⟩ => none
  | ⟨c :: rest, left, h⟩ =>
    if set.holds c then some ⟨rest, left - 1, by simp only [h, List.length_cons]; omega⟩ else none

/-- The rest of a text behind these characters, if it begins with them. -/
def restBehind? : (lead rest : Text) → Option Text
  | [], rest => some rest
  | _ :: _, [] => none
  | c :: lead, d :: rest => if c = d then restBehind? lead rest else none

/-- What lies behind some characters is shorter by their number. -/
theorem length_of_restBehind? {lead rest behind : Text} (h : restBehind? lead rest = some behind) :
    behind.length + lead.length = rest.length := by
  induction lead generalizing rest with
  | nil => simp_all [restBehind?]
  | cons c lead ih =>
    cases rest with
    | nil => simp [restBehind?] at h
    | cons d rest =>
      rw [restBehind?] at h
      split at h
      · have := ih h
        simp only [List.length_cons]
        omega
      · simp at h

/-- The place behind these characters, if they come next. -/
def Place.behind? (lead : Text) (p : Place) : Option Place :=
  match h : restBehind? lead p.rest with
  | none => none
  | some rest => some ⟨rest, p.left - lead.length, by
      have := length_of_restBehind? h
      rw [p.left_eq]
      omega⟩

/-- Which places have been reached, by the number of characters that are left. -/
abbrev Reached := Array Bool

/-- No place has been reached yet, neither one of these nor one behind them. -/
def Reached.none (ps : List Place) : Reached :=
  Array.replicate (ps.foldl (fun n p => max n (p.left + 1)) 0) false

/-- Whether a place has been reached. -/
def Reached.holds (reached : Reached) (left : Nat) : Bool := reached.getD left false

/-- One more place has been reached. -/
def Reached.add (reached : Reached) (p : Place) : Reached := reached.setIfInBounds p.left true

/-- The places behind one or more characters of a set, as far as they have not been reached before;
the nearest place is the first one. -/
def placesAfter (set : CharSet) (reached : Reached) :
    (rest : Text) → (left : Nat) → left = rest.length → List Place
  | [], _, _ => []
  | c :: rest, left, h =>
    if set.holds c && !reached.holds (left - 1) then
      have h : left - 1 = rest.length := by simp only [h, List.length_cons]; omega
      ⟨rest, left - 1, h⟩ :: placesAfter set reached rest (left - 1) h
    else []

/-- To begin with, no place counts as reached. -/
theorem Reached.holds_none (ps : List Place) (left : Nat) : (none ps).holds left = false := by
  simp only [none, holds, Array.getD_eq_getD_getElem?, Array.getElem?_replicate]
  split <;> rfl

/-- That a place has been reached does not change what is known about the others. -/
theorem Reached.holds_add_of_ne {reached : Reached} {p : Place} {left : Nat}
    (h : p.left ≠ left) : (reached.add p).holds left = reached.holds left := by
  simp only [add, holds, Array.getD_eq_getD_getElem?, Array.getElem?_setIfInBounds_ne h]

end Rejoinder.Regex
