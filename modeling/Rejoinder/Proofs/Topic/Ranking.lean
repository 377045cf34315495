import Mathlib.Data.List.Sort
import Mathlib.Data.List.Nodup
import Rejoinder.Topic

/-!
# The order in which rules are tried

A rule comes before another one if its weight is greater, or if the weights are equal and its score
is greater, or if both are equal and it was registered earlier (`Precedes`). This is a strict total
order on the places of the rules, so there is exactly one ranking: one way to list the places so
that each of them comes before those behind it. `rank` finds it (`isRanking_iff_eq_rank`).

The sort behind `rank` only looks at weights and scores. That it keeps the order of registration
where these are equal is its stability, and it is used once, in `pairwise_precedes_rank`.
-/

set_option autoImplicit false

namespace Rejoinder

namespace Topic

/-- A rule is tried before another one, by the places at which they were registered. -/
def Precedes (rules : List Rule) (i j : Nat) : Prop :=
  ∀ a b, rules[i]? = some a → rules[j]? = some b →
    b.weight < a.weight ∨ b.weight = a.weight ∧ (b.score < a.score ∨ b.score = a.score ∧ i < j)

/-- The places of the rules, each once and in the order in which the rules are tried. -/
structure IsRanking (rules : List Rule) (places : List Nat) : Prop where
  perm : places.Perm (List.range rules.length)
  sorted : places.Pairwise (Precedes rules)

/-! ## Ranks of rules -/

/-- A rule ranks before another one by its weight, and by its score where the weights are equal. -/
theorem ranksBefore_iff (a b : Rule) :
    a.ranksBefore b = true ↔
      b.weight < a.weight ∨ b.weight = a.weight ∧ b.score ≤ a.score := by
  have hweight : compare a.weight b.weight = .lt ↔ a.weight < b.weight := Int.compare_eq_lt
  have hscore : compare a.score b.score = .lt ↔ a.score < b.score := Nat.compare_eq_lt
  have hsame : compare a.weight b.weight = .eq ↔ a.weight = b.weight := Int.compare_eq_eq
  rw [Rule.ranksBefore, Rule.order, bne_iff_ne, ne_eq, Ordering.then_eq_lt, hweight, hsame, hscore]
  omega

/-- The order of the ranking is transitive. -/
theorem ranksBefore_trans (a b c : Rule × Nat) (hab : a.1.ranksBefore b.1 = true)
    (hbc : b.1.ranksBefore c.1 = true) : a.1.ranksBefore c.1 = true := by
  rw [ranksBefore_iff] at *
  omega

/-- The order of the ranking is total. -/
theorem ranksBefore_total (a b : Rule × Nat) :
    (a.1.ranksBefore b.1 || b.1.ranksBefore a.1) = true := by
  rw [Bool.or_eq_true, ranksBefore_iff, ranksBefore_iff]
  omega

/-- Of two rules that rank equally, the one that precedes is the one registered earlier. -/
theorem precedes_of_ranksBefore {rules : List Rule} {a b : Rule} {i j : Nat}
    (ha : rules[i]? = some a) (hb : rules[j]? = some b) (hrank : a.ranksBefore b = true)
    (hplace : b.ranksBefore a = true → i < j) : Precedes rules i j := by
  intro a' b' ha' hb'
  obtain rfl := Option.some.inj (ha.symm.trans ha')
  obtain rfl := Option.some.inj (hb.symm.trans hb')
  rw [ranksBefore_iff] at hrank hplace
  omega

/-- No rule precedes itself, and of two rules only one precedes the other. -/
theorem Precedes.asymm {rules : List Rule} {i j : Nat} (hi : i < rules.length)
    (hj : j < rules.length) (hij : Precedes rules i j) : ¬ Precedes rules j i := by
  intro hji
  have h := hij rules[i] rules[j] (List.getElem?_eq_getElem hi) (List.getElem?_eq_getElem hj)
  have h' := hji rules[j] rules[i] (List.getElem?_eq_getElem hj) (List.getElem?_eq_getElem hi)
  omega

/-! ## The sort is stable -/

/-- Numbered rules are distinct, since their numbers are. -/
theorem nodup_zipIdx (rules : List Rule) : rules.zipIdx.Nodup := by
  refine List.Nodup.of_map Prod.snd ?_
  rw [List.zipIdx_map_snd]
  exact List.nodup_range'

/-- In the order of registration, the rules stand by their places. -/
theorem pair_sublist_zipIdx {rules : List Rule} {x y : Rule × Nat} (hx : x ∈ rules.zipIdx)
    (hy : y ∈ rules.zipIdx) (h : x.2 < y.2) : [x, y].Sublist rules.zipIdx := by
  obtain ⟨k, hk, rfl⟩ := List.mem_iff_getElem.mp hx
  obtain ⟨l, hl, rfl⟩ := List.mem_iff_getElem.mp hy
  simp only [List.getElem_zipIdx, Nat.zero_add] at h
  have hpairs : rules.zipIdx.Pairwise fun x y => [x, y].Sublist rules.zipIdx :=
    List.pairwise_iff_forall_sublist.mpr id
  exact List.pairwise_iff_getElem.mp hpairs k l hk hl h

/-- Two different members of a list without repetition stand in one order only. -/
theorem not_pair_sublist {α : Type} {l : List α} (hl : l.Nodup) {k m : Nat} {hk : k < l.length}
    {hm : m < l.length} (hkm : k < m) : ¬ [l[m], l[k]].Sublist l := by
  classical
  intro h
  have hordered : l.Pairwise fun x y => l.idxOf x < l.idxOf y := by
    rw [List.pairwise_iff_getElem]
    intro i j hi hj hij
    rwa [hl.idxOf_getElem, hl.idxOf_getElem]
  have hbackward := List.pairwise_iff_forall_sublist.mp hordered h
  rw [hl.idxOf_getElem, hl.idxOf_getElem] at hbackward
  omega

/-- In the ranking of some rules every place precedes those behind it. -/
theorem pairwise_precedes_rank (rules : List Rule) : (rank rules).Pairwise (Precedes rules) := by
  have hperm := List.mergeSort_perm rules.zipIdx fun a b => a.1.ranksBefore b.1
  have hsorted := List.pairwise_mergeSort ranksBefore_trans ranksBefore_total rules.zipIdx
  have hnodup := hperm.nodup_iff.mpr (nodup_zipIdx rules)
  rw [rank, List.pairwise_map, List.pairwise_iff_getElem]
  intro k m hk hm hkm
  have hx := hperm.mem_iff.mp (List.getElem_mem hk)
  have hy := hperm.mem_iff.mp (List.getElem_mem hm)
  refine precedes_of_ranksBefore (List.mem_zipIdx_iff_getElem?.mp hx)
    (List.mem_zipIdx_iff_getElem?.mp hy) (List.pairwise_iff_getElem.mp hsorted k m hk hm hkm) ?_
  -- Were the later member registered earlier, the sort would have kept it in front.
  intro hequal
  by_contra hplace
  have hne : (rules.zipIdx.mergeSort fun a b => a.1.ranksBefore b.1)[k].2 ≠
      (rules.zipIdx.mergeSort fun a b => a.1.ranksBefore b.1)[m].2 := by
    intro hsame
    have hi := List.mem_zipIdx_iff_getElem?.mp hx
    have hj := List.mem_zipIdx_iff_getElem?.mp hy
    rw [hsame, hj] at hi
    have heq := Prod.ext (Option.some.inj hi.symm) hsame
    have := (hnodup.getElem_inj_iff).mp heq
    omega
  have hpair := List.pair_sublist_mergeSort ranksBefore_trans ranksBefore_total hequal
    (pair_sublist_zipIdx hy hx (by omega))
  exact not_pair_sublist hnodup hkm hpair

/-- The ranking of some rules has all their places, each once. -/
theorem perm_rank (rules : List Rule) : (rank rules).Perm (List.range rules.length) := by
  have hperm := (List.mergeSort_perm rules.zipIdx fun a b => a.1.ranksBefore b.1).map Prod.snd
  rwa [List.zipIdx_map_snd, ← List.range_eq_range'] at hperm

/-! ## Rules of equal rank -/

section Map

variable {f : Rule → Rule} (hf : ∀ r, (f r).weight = r.weight ∧ (f r).score = r.score)

include hf

/-- Only weights, scores and places count. -/
theorem precedes_map (rules : List Rule) (i j : Nat) :
    Precedes (rules.map f) i j ↔ Precedes rules i j := by
  have hkeep : ∀ a b, ((f b).weight < (f a).weight ∨ (f b).weight = (f a).weight ∧
      ((f b).score < (f a).score ∨ (f b).score = (f a).score ∧ i < j)) ↔
        (b.weight < a.weight ∨ b.weight = a.weight ∧
          (b.score < a.score ∨ b.score = a.score ∧ i < j)) := by
    intro a b
    rw [(hf a).1, (hf a).2, (hf b).1, (hf b).2]
  simp only [Precedes, List.getElem?_map, Option.map_eq_some_iff]
  constructor
  · intro h a b ha hb
    exact (hkeep a b).mp (h (f a) (f b) ⟨a, ha, rfl⟩ ⟨b, hb, rfl⟩)
  · rintro h _ _ ⟨a, ha, rfl⟩ ⟨b, hb, rfl⟩
    exact (hkeep a b).mpr (h a b ha hb)

/-- A change of rules that keeps weights and scores keeps the rankings. -/
theorem isRanking_map (rules : List Rule) (places : List Nat) :
    IsRanking (rules.map f) places ↔ IsRanking rules places := by
  have hprecedes : Precedes (rules.map f) = Precedes rules := by
    funext i j
    exact propext (precedes_map hf rules i j)
  constructor
  · rintro ⟨hperm, hsorted⟩
    rw [List.length_map] at hperm
    rw [hprecedes] at hsorted
    exact ⟨hperm, hsorted⟩
  · rintro ⟨hperm, hsorted⟩
    refine ⟨?_, ?_⟩
    · rwa [List.length_map]
    · rwa [hprecedes]

end Map

/-- There is exactly one ranking, and `rank` finds it. -/
theorem isRanking_iff_eq_rank (rules : List Rule) (places : List Nat) :
    IsRanking rules places ↔ places = rank rules := by
  constructor
  · rintro ⟨hperm, hsorted⟩
    refine List.Perm.eq_of_pairwise ?_ hsorted (pairwise_precedes_rank rules)
      (hperm.trans (perm_rank rules).symm)
    intro i j hi hj hij hji
    have hi' := List.mem_range.mp (hperm.mem_iff.mp hi)
    have hj' := List.mem_range.mp ((perm_rank rules).mem_iff.mp hj)
    exact absurd hji (hij.asymm hi' hj')
  · rintro rfl
    exact ⟨perm_rank rules, pairwise_precedes_rank rules⟩

/-- Rules are ranked alike if they have the same weights and scores. -/
theorem rank_map (f : Rule → Rule) (hf : ∀ r, (f r).weight = r.weight ∧ (f r).score = r.score)
    (rules : List Rule) : rank (rules.map f) = rank rules := by
  rw [← isRanking_iff_eq_rank, ← isRanking_map hf, isRanking_iff_eq_rank]

end Topic

end Rejoinder
