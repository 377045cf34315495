import Mathlib

/-!
# First members

Of the members of a list that have one key, `firsts` keeps the first one, and none whose key has
been seen before the list. Lists from which the same members are kept are `Alike`: whoever looks for
the first member with a key finds the same one in both. Lists that are alike stay so when they are
continued, and when every member is replaced by a list whose keys depend on the key of the member
only.
-/

set_option autoImplicit false

namespace Rejoinder

section Firsts

variable {α β κ ν : Type} [DecidableEq κ] [DecidableEq ν] {key : α → κ}

/-- The first member with each key that has not been seen. -/
def firsts (key : α → κ) (seen : List κ) : List α → List α
  | [] => []
  | a :: as => if key a ∈ seen then firsts key seen as else a :: firsts key (key a :: seen) as

/-- A member whose key has been seen is not kept. -/
theorem firsts_cons_of_mem {seen : List κ} {a : α} {as : List α} (h : key a ∈ seen) :
    firsts key seen (a :: as) = firsts key seen as := by
  rw [firsts, if_pos h]

/-- A member whose key has not been seen is kept, and its key has then been seen. -/
theorem firsts_cons_of_not_mem {seen : List κ} {a : α} {as : List α} (h : key a ∉ seen) :
    firsts key seen (a :: as) = a :: firsts key (key a :: seen) as := by
  rw [firsts, if_neg h]

/-- In which order and how often keys have been seen does not count. -/
theorem firsts_congr {seen seen' : List κ} (h : ∀ k, k ∈ seen ↔ k ∈ seen') (as : List α) :
    firsts key seen as = firsts key seen' as := by
  induction as generalizing seen seen' with
  | nil => rfl
  | cons a as ih =>
    by_cases ha : key a ∈ seen
    · rw [firsts_cons_of_mem ha, firsts_cons_of_mem ((h _).mp ha)]
      exact ih h
    · rw [firsts_cons_of_not_mem ha, firsts_cons_of_not_mem (fun hs => ha ((h _).mpr hs))]
      have hcons : ∀ k, k ∈ key a :: seen ↔ k ∈ key a :: seen' := by
        intro k
        rw [List.mem_cons, List.mem_cons, h]
      rw [ih hcons]

/-- What a list leaves to its continuation. -/
theorem firsts_append (seen : List κ) (as bs : List α) :
    firsts key seen (as ++ bs) = firsts key seen as ++ firsts key (as.map key ++ seen) bs := by
  induction as generalizing seen with
  | nil => rfl
  | cons a as ih =>
    rw [List.cons_append, List.map_cons]
    by_cases ha : key a ∈ seen
    · rw [firsts_cons_of_mem ha, firsts_cons_of_mem ha, ih]
      congr 1
      refine firsts_congr ?_ bs
      intro k
      simp only [List.mem_append, List.mem_cons]
      grind
    · rw [firsts_cons_of_not_mem ha, firsts_cons_of_not_mem ha, ih, List.cons_append]
      congr 2
      refine firsts_congr ?_ bs
      intro k
      simp only [List.mem_append, List.mem_cons]
      grind

/-- What is kept is a member, and its key had not been seen. -/
theorem mem_of_mem_firsts {seen : List κ} {a : α} {as : List α} (h : a ∈ firsts key seen as) :
    a ∈ as ∧ key a ∉ seen := by
  induction as generalizing seen with
  | nil => simp [firsts] at h
  | cons b as ih =>
    by_cases hb : key b ∈ seen
    · rw [firsts_cons_of_mem hb] at h
      exact ⟨List.mem_cons_of_mem _ (ih h).1, (ih h).2⟩
    · rw [firsts_cons_of_not_mem hb] at h
      rcases List.mem_cons.mp h with rfl | h
      · exact ⟨List.mem_cons_self, hb⟩
      · exact ⟨List.mem_cons_of_mem _ (ih h).1, fun hs => (ih h).2 (List.mem_cons_of_mem _ hs)⟩

/-- No key is lost that has not been seen. -/
theorem mem_map_firsts {seen : List κ} {as : List α} {k : κ} :
    k ∈ (firsts key seen as).map key ↔ k ∈ as.map key ∧ k ∉ seen := by
  induction as generalizing seen with
  | nil => simp [firsts]
  | cons a as ih =>
    by_cases ha : key a ∈ seen
    · rw [firsts_cons_of_mem ha, ih, List.map_cons, List.mem_cons]
      grind
    · rw [firsts_cons_of_not_mem ha, List.map_cons, List.mem_cons, ih, List.map_cons,
        List.mem_cons, List.mem_cons]
      grind

/-- Lists from which the same members are kept leave the same keys seen. -/
theorem mem_keys_iff_of_firsts_eq {seen : List κ} {as bs : List α}
    (h : firsts key seen as = firsts key seen bs) (k : κ) :
    k ∈ as.map key ++ seen ↔ k ∈ bs.map key ++ seen := by
  by_cases hk : k ∈ seen
  · simp [hk]
  · have hkept (cs : List α) : k ∈ cs.map key ++ seen ↔ k ∈ (firsts key seen cs).map key := by
      rw [mem_map_firsts, List.mem_append]
      simp [hk]
    rw [hkept, hkept, h]

/-- No two members that are kept have one key. -/
theorem nodup_map_firsts (seen : List κ) (as : List α) : ((firsts key seen as).map key).Nodup := by
  induction as generalizing seen with
  | nil => simp [firsts]
  | cons a as ih =>
    by_cases ha : key a ∈ seen
    · rw [firsts_cons_of_mem ha]
      exact ih seen
    · rw [firsts_cons_of_not_mem ha, List.map_cons, List.nodup_cons]
      refine ⟨?_, ih _⟩
      intro h
      exact (mem_map_firsts.mp h).2 List.mem_cons_self

/-- Of members with different keys those are kept whose key has not been seen. -/
theorem firsts_eq_filter {as : List α} (h : (as.map key).Nodup) {seen : List κ} {p : α → Bool}
    (hp : ∀ a, p a = true ↔ key a ∉ seen) : firsts key seen as = as.filter p := by
  induction as generalizing seen p with
  | nil => rfl
  | cons a as ih =>
    rw [List.map_cons, List.nodup_cons] at h
    by_cases ha : key a ∈ seen
    · rw [firsts_cons_of_mem ha, ih h.2 hp, List.filter_cons_of_neg (fun hpa => (hp a).mp hpa ha)]
    · have hcons (b : α) : (p b && key b ≠ key a) = true ↔ key b ∉ key a :: seen := by
        rw [Bool.and_eq_true, hp, List.mem_cons, decide_eq_true_eq]
        grind
      rw [firsts_cons_of_not_mem ha, ih h.2 hcons, List.filter_cons_of_pos ((hp a).mpr ha)]
      congr 1
      refine List.filter_congr ?_
      intro b hb
      have hne : key b ≠ key a := fun e => h.1 (e ▸ List.mem_map_of_mem hb)
      simp [hne]

/-- Members with distinct keys are all kept. -/
theorem firsts_eq_self {as : List α} (h : (as.map key).Nodup) : firsts key [] as = as := by
  rw [firsts_eq_filter h (p := fun _ => true) (by simp)]
  simp

/-- Keeping first members twice changes nothing more. -/
theorem firsts_firsts {seen seen' : List κ} (h : seen' ⊆ seen) (as : List α) :
    firsts key seen (firsts key seen' as) = firsts key seen as := by
  induction as generalizing seen seen' with
  | nil => rfl
  | cons a as ih =>
    by_cases ha' : key a ∈ seen'
    · rw [firsts_cons_of_mem ha', firsts_cons_of_mem (h ha'), ih h]
    · rw [firsts_cons_of_not_mem ha']
      by_cases ha : key a ∈ seen
      · rw [firsts_cons_of_mem ha, firsts_cons_of_mem ha]
        exact ih (List.cons_subset.mpr ⟨ha, h⟩)
      · rw [firsts_cons_of_not_mem ha, firsts_cons_of_not_mem ha]
        rw [ih (List.cons_subset_cons _ h)]

/-- The first member of all is kept as the first one. -/
theorem head?_firsts (as : List α) : (firsts key [] as).head? = as.head? := by
  cases as with
  | nil => rfl
  | cons a as => rw [firsts_cons_of_not_mem (by simp)]; rfl

/-- Members of a list of images are kept by the keys of the images. -/
theorem firsts_map (f : β → α) (seen : List κ) (bs : List β) :
    firsts key seen (bs.map f) = (firsts (key ∘ f) seen bs).map f := by
  induction bs generalizing seen with
  | nil => rfl
  | cons b bs ih =>
    by_cases hb : key (f b) ∈ seen
    · have hb' : (key ∘ f) b ∈ seen := hb
      rw [List.map_cons, firsts_cons_of_mem hb, firsts_cons_of_mem hb', ih]
    · have hb' : (key ∘ f) b ∉ seen := hb
      rw [List.map_cons, firsts_cons_of_not_mem hb, firsts_cons_of_not_mem hb', List.map_cons, ih]
      rfl

/-- Members with a key of which all that follows has been seen may be left out. -/
theorem firsts_flatMap_firsts {key' : β → ν} {f : α → List β} {seen : List κ} {seen' : List ν}
    (hf : ∀ a b, key a = key b → (f a).map key' = (f b).map key')
    (hseen : ∀ a, key a ∈ seen → (f a).map key' ⊆ seen') (as : List α) :
    firsts key' seen' ((firsts key seen as).flatMap f) = firsts key' seen' (as.flatMap f) := by
  induction as generalizing seen seen' with
  | nil => rfl
  | cons a as ih =>
    rw [List.flatMap_cons, firsts_append]
    by_cases ha : key a ∈ seen
    · have hnone : firsts key' seen' (f a) = [] := by
        refine List.eq_nil_iff_forall_not_mem.mpr ?_
        intro b hb
        exact (mem_of_mem_firsts hb).2 (hseen a ha (List.mem_map_of_mem (mem_of_mem_firsts hb).1))
      have hsame : ∀ k, k ∈ (f a).map key' ++ seen' ↔ k ∈ seen' := by
        intro k
        rw [List.mem_append]
        exact or_iff_right_of_imp fun hk => hseen a ha hk
      rw [firsts_cons_of_mem ha, hnone, List.nil_append, firsts_congr hsame, ih hseen]
    · rw [firsts_cons_of_not_mem ha, List.flatMap_cons, firsts_append, ih]
      intro b hb
      rcases List.mem_cons.mp hb with e | hb
      · rw [hf b a e]
        exact List.subset_append_left _ _
      · exact List.Subset.trans (hseen b hb) (List.subset_append_right _ _)

/-! ## Lists from which the same members are kept -/

/-- The same members are the first ones with their keys. -/
def Alike (key : α → κ) (as bs : List α) : Prop := firsts key [] as = firsts key [] bs

namespace Alike

variable {as as' bs bs' cs : List α}

/-- A list is like itself. -/
theorem refl (as : List α) : Alike key as as := rfl

/-- Lists that are like the same list are like each other. -/
theorem trans (h : Alike key as bs) (h' : Alike key bs cs) : Alike key as cs := Eq.trans h h'

/-- Equal lists are alike. -/
theorem of_eq (h : as = bs) : Alike key as bs := h ▸ refl as

/-- The same members are kept whatever has been seen before. -/
theorem firsts_eq (h : Alike key as bs) (seen : List κ) : firsts key seen as = firsts key seen bs :=
  calc firsts key seen as
      = firsts key seen (firsts key [] as) := (firsts_firsts (List.nil_subset _) as).symm
    _ = firsts key seen (firsts key [] bs) := by rw [h]
    _ = firsts key seen bs := firsts_firsts (List.nil_subset _) bs

/-- Alike lists have the same keys. -/
theorem mem_map_iff (h : Alike key as bs) (k : κ) : k ∈ as.map key ↔ k ∈ bs.map key := by
  simpa using mem_keys_iff_of_firsts_eq h k

/-- Alike lists have the same first member. -/
theorem head?_eq (h : Alike key as bs) : as.head? = bs.head? := by
  have hfirst (cs : List α) : (firsts key [] cs).head? = cs.head? := head?_firsts cs
  rw [← hfirst as, h, hfirst bs]

/-- Alike lists may be put behind each other. -/
theorem append (h : Alike key as as') (h' : Alike key bs bs') :
    Alike key (as ++ bs) (as' ++ bs') := by
  unfold Alike
  rw [firsts_append, firsts_append, h, h'.firsts_eq, firsts_congr (mem_keys_iff_of_firsts_eq h)]

/-- Members that are alike may be replaced by lists with the same keys. -/
theorem flatMap {key' : β → ν} {f : α → List β} (h : Alike key as bs)
    (hf : ∀ a b, key a = key b → (f a).map key' = (f b).map key') :
    Alike key' (as.flatMap f) (bs.flatMap f) := by
  have hfirsts (cs : List α) :
      firsts key' [] ((firsts key [] cs).flatMap f) = firsts key' [] (cs.flatMap f) :=
    firsts_flatMap_firsts hf (by simp) cs
  calc firsts key' [] (as.flatMap f)
      = firsts key' [] ((firsts key [] as).flatMap f) := (hfirsts as).symm
    _ = firsts key' [] ((firsts key [] bs).flatMap f) := by rw [h]
    _ = firsts key' [] (bs.flatMap f) := hfirsts bs

/-- A member may be replaced by either of two lists that are alike. -/
theorem flatMap_congr {key' : β → ν} {f g : α → List β} (h : ∀ a ∈ as, Alike key' (f a) (g a)) :
    Alike key' (as.flatMap f) (as.flatMap g) := by
  induction as with
  | nil => exact refl _
  | cons a as ih =>
    rw [List.flatMap_cons, List.flatMap_cons]
    exact (h a List.mem_cons_self).append (ih fun b hb => h b (List.mem_cons_of_mem _ hb))

end Alike

end Firsts

end Rejoinder
