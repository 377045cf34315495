import Mathlib
import Rejoinder.Regex.Match

/-!
# Marks of groups

The marks of a way tell for every group where it has been entered and left, the last mark of a group
counting. If every group that has been entered has been left (`Paired`), the text of a group can be
looked up part by part (`captured?_append`), and a group around a part adds its own text to those of
the part (`captured?_enclosed_self`, `captured?_enclosed_of_ne`).
-/

set_option autoImplicit false

namespace Rejoinder.Regex

/-- Every group that has been entered has been left, and the other way round. -/
def Paired (marks : List Mark) : Prop :=
  ∀ name, (markedPlace? marks name true).isSome = (markedPlace? marks name false).isSome

/-- The marks of a group around other marks. -/
def enclosed (name : String) (first behind : Place) (marks : List Mark) : List Mark :=
  [⟨name, false, behind⟩] ++ (marks ++ [⟨name, true, first⟩])

/-- A place is looked for in the first marks and then in the others. -/
theorem markedPlace?_append (as bs : List Mark) (name : String) (entered : Bool) :
    markedPlace? (as ++ bs) name entered =
      (markedPlace? as name entered).or (markedPlace? bs name entered) := by
  unfold markedPlace?
  rw [List.find?_append]
  cases as.find? fun m => m.name = name && m.entered = entered <;> rfl

/-- A group without a mark has no place. -/
theorem markedPlace?_eq_none {marks : List Mark} {name : String} (h : ∀ m ∈ marks, m.name ≠ name)
    (entered : Bool) : markedPlace? marks name entered = none := by
  unfold markedPlace?
  rw [Option.map_eq_none_iff, List.find?_eq_none]
  intro m hm
  simp [h m hm]

/-- A single mark tells its own place and no other. -/
theorem markedPlace?_singleton (m : Mark) (name : String) (entered : Bool) :
    markedPlace? [m] name entered =
      if m.name = name ∧ m.entered = entered then some m.place else none := by
  unfold markedPlace?
  by_cases h : m.name = name ∧ m.entered = entered
  · simp [h]
  · rw [if_neg h, List.find?_cons_of_neg (by simpa using h)]
    rfl

/-- A group without a mark has captured nothing. -/
theorem captured?_eq_none {marks : List Mark} {name : String} (h : ∀ m ∈ marks, m.name ≠ name) :
    captured? marks name = none := by
  rw [captured?, markedPlace?_eq_none h]
  rfl

/-- Of two lists of marks the first one counts, if it has the group. -/
theorem captured?_append {as : List Mark} (h : Paired as) (bs : List Mark) (name : String) :
    captured? (as ++ bs) name = (captured? as name).or (captured? bs name) := by
  have hpair := h name
  unfold captured?
  rw [markedPlace?_append, markedPlace?_append]
  cases hfirst : markedPlace? as name true with
  | none =>
    have hbehind : markedPlace? as name false = none := by
      rw [hfirst] at hpair
      exact Option.not_isSome_iff_eq_none.mp (by simp [← hpair])
    rw [hbehind]
    rfl
  | some first =>
    rw [hfirst] at hpair
    obtain ⟨behind, hbehind⟩ := Option.isSome_iff_exists.mp hpair.symm
    rw [hbehind]
    rfl

/-- Marks in which every group has been entered and left may be put behind each other. -/
theorem Paired.append {as bs : List Mark} (ha : Paired as) (hb : Paired bs) :
    Paired (as ++ bs) := by
  intro name
  rw [markedPlace?_append, markedPlace?_append, Option.isSome_or, Option.isSome_or, ha name,
    hb name]

section Enclosed

variable {name : String} {first behind : Place} {marks : List Mark}

/-- The marks around others tell where their group was entered and left. -/
theorem markedPlace?_enclosed_self (h : ∀ m ∈ marks, m.name ≠ name) (entered : Bool) :
    markedPlace? (enclosed name first behind marks) name entered =
      some (if entered then first else behind) := by
  rw [enclosed, markedPlace?_append, markedPlace?_append, markedPlace?_eq_none h,
    markedPlace?_singleton, markedPlace?_singleton]
  cases entered <;> simp

/-- The marks around others do not hide those of other groups. -/
theorem markedPlace?_enclosed_of_ne {other : String} (h : name ≠ other) (entered : Bool) :
    markedPlace? (enclosed name first behind marks) other entered =
      markedPlace? marks other entered := by
  rw [enclosed, markedPlace?_append, markedPlace?_append, markedPlace?_singleton,
    markedPlace?_singleton]
  simp [h]

/-- A group that is entered and left around marks of others leaves every group entered and left. -/
theorem paired_enclosed (h : ∀ m ∈ marks, m.name ≠ name) (hmarks : Paired marks) :
    Paired (enclosed name first behind marks) := by
  intro other
  by_cases hother : name = other
  · subst hother
    rw [markedPlace?_enclosed_self h, markedPlace?_enclosed_self h]
    rfl
  · rw [markedPlace?_enclosed_of_ne hother, markedPlace?_enclosed_of_ne hother]
    exact hmarks other

/-- A group that stands around others has captured what lies between its two places. -/
theorem captured?_enclosed_self (h : ∀ m ∈ marks, m.name ≠ name) :
    captured? (enclosed name first behind marks) name =
      some (first.rest.take (first.left - behind.left)) := by
  rw [captured?, markedPlace?_enclosed_self h, markedPlace?_enclosed_self h]
  rfl

/-- A group that stands around others changes nothing about what they have captured. -/
theorem captured?_enclosed_of_ne {other : String} (h : name ≠ other) :
    captured? (enclosed name first behind marks) other = captured? marks other := by
  rw [captured?, markedPlace?_enclosed_of_ne h, markedPlace?_enclosed_of_ne h, captured?]

end Enclosed

end Rejoinder.Regex
