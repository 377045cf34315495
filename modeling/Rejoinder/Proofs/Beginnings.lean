import Mathlib

/-!
# What lists begin with

Taking and dropping members stops where the first one does not qualify. Members of two lists that
are found the same, one after the other, are what the lists have in common (`common`). If only equal
members are found the same, both lists begin with this, and doing it for one list after the other
gives something that all of them begin with (`foldl_common_begins`).
-/

set_option autoImplicit false

namespace Rejoinder

section Stop

variable {α : Type} {q : α → Bool} {body rest : List α}

/-- Taking stops at the end of a part all of whose members qualify if none follows that does. -/
theorem takeWhile_append_of_stop (hbody : ∀ a ∈ body, q a = true)
    (hrest : ∀ a ∈ rest.head?, q a = false) : (body ++ rest).takeWhile q = body := by
  rw [List.takeWhile_append_of_pos hbody]
  cases rest with
  | nil => simp
  | cons d rest => simp [hrest d (by simp)]

/-- Dropping stops there as well. -/
theorem dropWhile_append_of_stop (hbody : ∀ a ∈ body, q a = true)
    (hrest : ∀ a ∈ rest.head?, q a = false) : (body ++ rest).dropWhile q = rest := by
  rw [List.dropWhile_append_of_pos hbody]
  cases rest with
  | nil => rfl
  | cons d rest => simp [hrest d (by simp)]

omit rest body in
/-- What is left by dropping begins with a member that does not qualify. -/
theorem eq_false_of_mem_head?_dropWhile {l : List α} : ∀ a ∈ (l.dropWhile q).head?, q a = false := by
  intro a ha
  have hhead := List.head?_dropWhile_not q l
  rw [Option.mem_def.mp ha] at hhead
  simpa using hhead

end Stop

section Common

variable {α : Type} {same : α → α → Bool}

/-- What two lists have in common at the beginning. -/
def common (same : α → α → Bool) : List α → List α → List α
  | a :: as, b :: bs => if same a b then a :: common same as bs else []
  | _, _ => []

/-- What two lists have in common at the beginning is a beginning of both. -/
theorem common_begins (hsame : ∀ a b, same a b = true → a = b) (as bs : List α) :
    common same as bs <+: as ∧ common same as bs <+: bs := by
  fun_induction common same as bs with
  | case1 a as b bs hab ih =>
    obtain rfl := hsame a b hab
    exact ⟨List.cons_prefix_cons.mpr ⟨rfl, ih.1⟩, List.cons_prefix_cons.mpr ⟨rfl, ih.2⟩⟩
  | case2 => exact ⟨List.nil_prefix, List.nil_prefix⟩
  | case3 => exact ⟨List.nil_prefix, List.nil_prefix⟩

/-- An element of a common beginning has been compared with itself, so it counts as the same as
itself. -/
theorem same_of_mem_common (hsame : ∀ a b, same a b = true → a = b) {as bs : List α} {c : α}
    (h : c ∈ common same as bs) : same c c = true := by
  fun_induction common same as bs with
  | case1 a as b bs hab ih =>
    rcases List.mem_cons.mp h with rfl | h
    · obtain rfl := hsame c b hab
      exact hab
    · exact ih h
  | case2 => simp at h
  | case3 => simp at h

/-- What several lists have in common at the beginning is a beginning of each of them. -/
theorem foldl_common_begins (hsame : ∀ a b, same a b = true → a = b) (first : List α)
    (others : List (List α)) :
    others.foldl (common same) first <+: first ∧
      ∀ other ∈ others, others.foldl (common same) first <+: other := by
  induction others generalizing first with
  | nil => simp
  | cons other others ih =>
    obtain ⟨hfirst, hothers⟩ := ih (common same first other)
    have hcommon := common_begins hsame first other
    exact ⟨hfirst.trans hcommon.1, List.forall_mem_cons.mpr ⟨hfirst.trans hcommon.2, hothers⟩⟩

/-- An element of what several lists begin with counts as the same as itself, if there is more than
one list. -/
theorem same_of_mem_foldl_common (hsame : ∀ a b, same a b = true → a = b) {first : List α}
    {others : List (List α)} (hne : others ≠ []) {c : α}
    (h : c ∈ others.foldl (common same) first) : same c c = true := by
  obtain ⟨other, others, rfl⟩ := List.exists_cons_of_ne_nil hne
  rw [List.foldl_cons] at h
  exact same_of_mem_common hsame ((foldl_common_begins hsame _ others).1.subset h)

end Common

end Rejoinder
