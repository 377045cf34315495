/-!
# Outcomes

Computations that may fail are chains of steps. These lemmas take a chain apart: it succeeds
exactly if its first step does and the rest does with what that step gave. A list of computations
fails as the first of them does that fails (`error?_mapM`).
-/

set_option autoImplicit false

namespace Rejoinder

section Outcome

variable {ε ε' α β γ : Type}

/-- A step that succeeds hands its result on. -/
@[simp] theorem ok_bind (a : α) (f : α → Except ε β) : (Except.ok a >>= f) = f a := rfl

/-- A step that fails ends the chain. -/
@[simp] theorem error_bind (e : ε) (f : α → Except ε β) :
    (Except.error e >>= f) = Except.error e := rfl

/-- A chain succeeds if its first step does and the rest does with the result of that step. -/
theorem bind_eq_ok_iff {x : Except ε α} {f : α → Except ε β} {b : β} :
    (x >>= f) = .ok b ↔ ∃ a, x = .ok a ∧ f a = .ok b := by
  cases x with
  | error e => simp
  | ok a => simp

/-- Changing the error of a computation does not change when it succeeds. -/
theorem mapError_eq_ok_iff {x : Except ε α} {f : ε → ε'} {a : α} :
    x.mapError f = .ok a ↔ x = .ok a := by
  cases x with
  | error e => exact ⟨nofun, nofun⟩
  | ok b =>
    constructor
    · intro h
      obtain rfl := Except.ok.inj h
      rfl
    · intro h
      obtain rfl := Except.ok.inj h
      rfl

/-- A result that is changed afterwards was a result before. -/
theorem map_eq_ok_iff {x : Except ε α} {f : α → β} {b : β} :
    x.map f = .ok b ↔ ∃ a, x = .ok a ∧ f a = b := by
  cases x with
  | error e => simp [Except.map]
  | ok a => simp [Except.map]

/-- The error of a computation that fails. -/
def error? : Except ε α → Option ε
  | .ok _ => none
  | .error e => some e

/-- The error of an outcome is there exactly if the outcome is that error. -/
theorem error?_eq_some_iff {x : Except ε α} {e : ε} : error? x = some e ↔ x = .error e := by
  cases x <;> simp [error?]

/-- An outcome without an error has a value. -/
theorem error?_eq_none_iff {x : Except ε α} : error? x = none ↔ ∃ a, x = .ok a := by
  cases x <;> simp [error?]

/-- A result that is changed afterwards fails as before. -/
theorem error?_map (x : Except ε α) (f : α → β) : error? (x.map f) = error? x := by
  cases x <;> rfl

/-- A computation whose result is only wrapped fails as before. -/
theorem error?_bind_pure (x : Except ε α) (f : α → β) :
    error? (x >>= fun a => pure (f a)) = error? x := by
  cases x <;> rfl

/-- Of two computations in a row the first one that fails counts. -/
theorem error?_bind_bind_pure (x : Except ε α) (y : Except ε β) (f : α → β → γ) :
    error? (x >>= fun a => y >>= fun b => pure (f a b)) = (error? x).or (error? y) := by
  cases x with
  | error e => rfl
  | ok a => cases y <;> rfl

/-- The first computation that fails makes the whole list fail. -/
theorem error?_mapM (f : α → Except ε β) (l : List α) :
    error? (l.mapM f) = l.findSome? fun a => error? (f a) := by
  induction l with
  | nil => rfl
  | cons a rest ih =>
    rw [List.mapM_cons, List.findSome?_cons, ← ih]
    cases f a with
    | error e => rfl
    | ok b => cases rest.mapM f <;> rfl

/-- A computation over a list fails at the first element with which it cannot go on. -/
theorem exists_of_foldlM_eq_error {f : β → α → Except ε β} {b : β} {l : List α} {e : ε}
    (h : l.foldlM f b = .error e) :
    ∃ front a rest b', l = front ++ a :: rest ∧ front.foldlM f b = .ok b' ∧ f b' a = .error e := by
  induction l generalizing b with
  | nil => contradiction
  | cons a l ih =>
    rw [List.foldlM_cons] at h
    cases hstep : f b a with
    | error cause =>
      rw [hstep] at h
      obtain rfl := Except.error.inj h
      exact ⟨[], a, l, b, rfl, rfl, hstep⟩
    | ok b₁ =>
      rw [hstep, ok_bind] at h
      obtain ⟨front, a', rest, b', rfl, hfront, hlast⟩ := ih h
      refine ⟨a :: front, a', rest, b', rfl, ?_, hlast⟩
      rw [List.foldlM_cons, hstep, ok_bind, hfront]

/-- Results that are changed one by one are changed together. -/
theorem mapM_map (f : α → Except ε β) (g : β → γ) (l : List α) :
    (l.mapM fun a => (f a).map g) = (l.mapM f).map (List.map g) := by
  induction l with
  | nil => rfl
  | cons a rest ih =>
    rw [List.mapM_cons, List.mapM_cons, ih]
    cases f a with
    | error e => rfl
    | ok b => cases rest.mapM f <;> rfl

/-- Where no computation fails, there are results only. -/
theorem map_ok_filterMap_toOption {l : List (Except ε α)} (h : l.filterMap error? = []) :
    (l.filterMap Except.toOption).map .ok = l := by
  induction l with
  | nil => rfl
  | cons x rest ih =>
    cases x with
    | error e => contradiction
    | ok a => exact congrArg (List.cons (.ok a)) (ih h)

end Outcome

end Rejoinder
