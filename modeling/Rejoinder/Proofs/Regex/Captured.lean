import Mathlib
import Rejoinder.Proofs.Regex.Simulation

/-!
# What a match captures lies in the text

A way through an expression marks groups only at places that it comes to, and it never leaves the
text (`Step.suffix_of_mem_marks`). So every group of a match is a part of the text in which the
match has been found (`isInfix_of_captured?`).
-/

set_option autoImplicit false

namespace Rejoinder.Regex

/-- A mark of a way that is marked anew is an old one or at the place that has been reached. -/
theorem Thread.of_mem_marks_mark {t : Thread} {name : Option String} {entered : Bool} {m : Mark}
    (h : m ∈ (t.mark name entered).marks) : m ∈ t.marks ∨ m.place = t.place := by
  cases name with
  | none => exact .inl h
  | some name =>
    rcases List.mem_cons.mp h with rfl | h
    · exact .inr rfl
    · exact .inl h

section Ways

variable (whole : Nat)

mutual

/-- A way through a step brings marks along or makes them on the rest of the text. -/
theorem Step.suffix_of_mem_marks (s : Step) {t u : Thread} (h : u ∈ s.ways whole t) {m : Mark}
    (hm : m ∈ u.marks) : m ∈ t.marks ∨ m.place.rest <:+ t.rest := by
  cases s with
  | literal lead =>
    obtain ⟨p, _, rfl⟩ := (Step.mem_ways_literal whole).mp h
    exact .inl hm
  | one set =>
    obtain ⟨p, _, rfl⟩ := (Step.mem_ways_one whole).mp h
    exact .inl hm
  | many set lazy =>
    obtain ⟨p, _, rfl⟩ := (Step.mem_ways_many whole).mp h
    exact .inl hm
  | start =>
    obtain ⟨_, rfl⟩ := (Step.mem_ways_start whole).mp h
    exact .inl hm
  | stop =>
    obtain ⟨_, rfl⟩ := (Step.mem_ways_stop whole).mp h
    exact .inl hm
  | option body lazy =>
    rcases (Step.mem_ways_option whole).mp h with rfl | hmem
    · exact .inl hm
    · exact suffix_of_mem_marks_sequenceWays body hmem hm
  | choice branches => exact suffix_of_mem_marks_branchesWays branches h hm
  | capture name body =>
    obtain ⟨v, hv, rfl⟩ := (Step.mem_ways_capture whole).mp h
    -- The mark is from within the group, or it is where the group is left.
    rcases Thread.of_mem_marks_mark hm with hm | hplace
    · rcases suffix_of_mem_marks_sequenceWays body hv hm with hm | hsuffix
      · rcases Thread.of_mem_marks_mark hm with hm | hplace
        · exact .inl hm
        · rw [hplace]
          exact .inr List.suffix_rfl
      · rw [Thread.rest_mark] at hsuffix
        exact .inr hsuffix
    · have hrest := rest_suffix_of_mem_sequenceWays whole body hv
      rw [Thread.rest_mark, Thread.rest, ← hplace] at hrest
      exact .inr hrest

/-- The marks that a way gets in a sequence are at places behind the one where it came in. -/
theorem suffix_of_mem_marks_sequenceWays (ss : List Step) {t u : Thread}
    (h : u ∈ sequenceWays whole ss t) {m : Mark} (hm : m ∈ u.marks) :
    m ∈ t.marks ∨ m.place.rest <:+ t.rest := by
  cases ss with
  | nil =>
    obtain rfl := List.mem_singleton.mp h
    exact .inl hm
  | cons s ss =>
    obtain ⟨v, hv, hu⟩ := (mem_sequenceWays_cons whole).mp h
    rcases suffix_of_mem_marks_sequenceWays ss hu hm with hm | hsuffix
    · exact Step.suffix_of_mem_marks s hv hm
    · exact .inr (hsuffix.trans (Step.rest_suffix_of_mem_ways whole s hv))

/-- The marks that a way gets in a branch are at places behind the one where it came in. -/
theorem suffix_of_mem_marks_branchesWays (bs : List (List Step)) {t u : Thread}
    (h : u ∈ branchesWays whole bs t) {m : Mark} (hm : m ∈ u.marks) :
    m ∈ t.marks ∨ m.place.rest <:+ t.rest := by
  cases bs with
  | nil => simp [branchesWays] at h
  | cons b bs =>
    rcases List.mem_append.mp h with h | h
    · exact suffix_of_mem_marks_sequenceWays b h hm
    · exact suffix_of_mem_marks_branchesWays bs h hm

end

end Ways

/-- All ways at once mark groups where one of them does. -/
theorem suffix_of_advanceSequence {whole : Nat} {ss : List Step} {text : Text} {t : Thread}
    (h : t ∈ advanceSequence whole ss [.start (.ofText text)]) {m : Mark} (hm : m ∈ t.marks) :
    m.place.rest <:+ text := by
  rw [advanceSequence_eq_firsts whole ss (settled_start text), List.flatMap_singleton] at h
  have hways := (mem_of_mem_firsts h).1
  rcases suffix_of_mem_marks_sequenceWays whole ss hways hm with hm | hsuffix
  · simp [Thread.start] at hm
  · exact hsuffix

/-- A search marks groups only in the text in which it searches. -/
theorem suffix_of_findFrom {whole : Nat} {r : Regex} {text : Text} {marks : List Mark}
    (h : findFrom whole r text = some marks) {m : Mark} (hm : m ∈ marks) :
    m.place.rest <:+ text := by
  induction text with
  | nil =>
    rw [findFrom.eq_def] at h
    split at h
    · rename_i t ts hways
      obtain rfl := Option.some.inj h
      exact suffix_of_advanceSequence (hways ▸ List.mem_cons_self) hm
    · simp at h
  | cons c text ih =>
    rw [findFrom.eq_def] at h
    split at h
    · rename_i t ts hways
      obtain rfl := Option.some.inj h
      exact suffix_of_advanceSequence (hways ▸ List.mem_cons_self) hm
    · exact (ih h).trans (List.suffix_cons c text)

/-- The text of a group is a part of the text in which the match has been found. -/
theorem isInfix_of_captured? {r : Regex} {text part : Text} {marks : List Mark} {name : String}
    (h : r.find? text = some marks) (hpart : captured? marks name = some part) :
    part <:+: text := by
  obtain ⟨first, hfirst, hpart⟩ := Option.bind_eq_some_iff.mp hpart
  obtain ⟨behind, _, hpart⟩ := Option.bind_eq_some_iff.mp hpart
  obtain rfl := Option.some.inj hpart
  obtain ⟨m, hm, rfl⟩ := Option.map_eq_some_iff.mp hfirst
  have hsuffix := suffix_of_findFrom h (List.mem_of_find?_eq_some hm)
  exact (List.take_prefix _ _).isInfix.trans hsuffix.isInfix

end Rejoinder.Regex
