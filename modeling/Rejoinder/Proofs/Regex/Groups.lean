import Mathlib
import Rejoinder.Proofs.Regex.Normalization
import Rejoinder.Regex.Compile
import Rejoinder.Text.Number

/-!
# How many groups an expression has

Simplification loses no group: what is put before a choice of several branches remembers nothing, so
every group of a tree is still in the steps (`length_pieceNames_le`). The automaton has a state for
every group at least (`stepGroups_le`). So an expression that is not too large has fewer groups than
a machine word has values (`length_groupNames_lt_of_fits`).
-/

set_option autoImplicit false

namespace Rejoinder.Regex

mutual

/-- How many groups a step remembers. -/
def stepGroups : Step → Nat
  | .option body _ => stepsGroups body
  | .choice branches => branchesGroups branches
  | .capture _ body => stepsGroups body + 1
  | _ => 0
termination_by structural s => s

/-- How many groups a sequence of steps remembers. -/
def stepsGroups : List Step → Nat
  | [] => 0
  | s :: ss => stepGroups s + stepsGroups ss
termination_by structural ss => ss

/-- How many groups the branches of a choice remember. -/
def branchesGroups : List (List Step) → Nat
  | [] => 0
  | b :: bs => stepsGroups b + branchesGroups bs
termination_by structural bs => bs

end

/-- A sequence of steps without groups has no groups. -/
theorem stepsGroups_eq_zero {ss : List Step} (h : ∀ s ∈ ss, stepGroups s = 0) :
    stepsGroups ss = 0 := by
  induction ss with
  | nil => rfl
  | cons s ss ih =>
    obtain ⟨hs, hss⟩ := List.forall_mem_cons.mp h
    rw [stepsGroups, hs, ih hss]

/-- Branches without groups have no groups. -/
theorem branchesGroups_eq_zero {bs : List (List Step)} (h : ∀ b ∈ bs, stepsGroups b = 0) :
    branchesGroups bs = 0 := by
  induction bs with
  | nil => rfl
  | cons b bs ih =>
    obtain ⟨hb, hbs⟩ := List.forall_mem_cons.mp h
    rw [branchesGroups, hb, ih hbs]

/-! ## A state for every group -/

/-- A sequence that is only text has no groups. -/
theorem stepsGroups_of_literal? {ss : List Step} {text : Text} (h : literal? ss = some text) :
    stepsGroups ss = 0 := by
  unfold literal? at h
  split at h
  · rfl
  · simp at h

/-- Where all of a list has images, each of its members has one. -/
theorem exists_of_mapM {α β : Type} {f : α → Option β} {as : List α} {bs : List β}
    (h : as.mapM f = some bs) : ∀ a ∈ as, ∃ b, f a = some b := by
  induction as generalizing bs with
  | nil => simp
  | cons a as ih =>
    rw [List.mapM_cons] at h
    obtain ⟨b, hb, h⟩ := Option.bind_eq_some_iff.mp h
    obtain ⟨bs', hbs, _⟩ := Option.bind_eq_some_iff.mp h
    exact List.forall_mem_cons.mpr ⟨⟨b, hb⟩, ih hbs⟩

mutual

/-- The automaton has a state for every group of a step at least. -/
theorem stepGroups_le (sizeOf : CharSet → Nat) (s : Step) :
    stepGroups s ≤ stepSize .forward sizeOf s := by
  cases s with
  | option body lazy =>
    have hbody := stepsGroups_le sizeOf body
    simp only [stepGroups, stepSize]
    omega
  | choice branches =>
    simp only [stepGroups, stepSize]
    split
    · rename_i texts htexts
      -- A choice between texts may share their states, but it has no groups.
      have hzero : branchesGroups branches = 0 := by
        refine branchesGroups_eq_zero ?_
        intro b hb
        obtain ⟨text, htext⟩ := exists_of_mapM htexts b hb
        exact stepsGroups_of_literal? htext
      omega
    · have hbranches := branchesGroups_le sizeOf branches
      omega
  | capture name body =>
    have hbody := stepsGroups_le sizeOf body
    simp only [stepGroups, stepSize, stateSize]
    omega
  | _ => exact Nat.zero_le _

/-- Every group of a sequence takes up some of its size. -/
theorem stepsGroups_le (sizeOf : CharSet → Nat) (ss : List Step) :
    stepsGroups ss ≤ sequenceSize .forward sizeOf ss := by
  cases ss with
  | nil => exact Nat.zero_le _
  | cons s ss =>
    have hfirst := stepGroups_le sizeOf s
    have hrest := stepsGroups_le sizeOf ss
    cases ss with
    | nil => exact hfirst
    | cons t ss => exact Nat.add_le_add hfirst hrest

/-- Every group of some branches takes up some of their size. -/
theorem branchesGroups_le (sizeOf : CharSet → Nat) (bs : List (List Step)) :
    branchesGroups bs ≤ branchesSize .forward sizeOf bs := by
  cases bs with
  | nil => exact Nat.zero_le _
  | cons b bs => exact Nat.add_le_add (stepsGroups_le sizeOf b) (branchesGroups_le sizeOf bs)

end

/-- An expression that is not too large does not remember too many groups. -/
theorem stepsGroups_lt_of_fits {r : Regex} (h : r.fits = true) :
    stepsGroups r.steps < Text.wordLimit := by
  rw [fits, Bool.and_eq_true, decide_eq_true_eq] at h
  have hsize := h.1
  simp only [size] at hsize
  have hgroups := stepsGroups_le
    (fun set => ((setSizes .forward (sequenceSets r.steps)).lookup set).getD 0) r.steps
  have hlimit : sizeLimit < Text.wordLimit := by decide
  omega

/-! ## No group is lost -/

/-- The groups of two sequences are counted one after the other. -/
theorem stepsGroups_append (as bs : List Step) :
    stepsGroups (as ++ bs) = stepsGroups as + stepsGroups bs := by
  induction as with
  | nil => simp [stepsGroups]
  | cons a as ih => rw [List.cons_append, stepsGroups, ih, stepsGroups, Nat.add_assoc]

/-- Joining two sequences keeps the number of groups. -/
theorem stepsGroups_join (as bs : List Step) :
    stepsGroups (join as bs) = stepsGroups as + stepsGroups bs := by
  fun_induction join as bs with
  | case1 => simp [stepsGroups]
  | case2 s t ts => simp [stepsGroups, stepGroups]
  | case3 bs s ss _ ih => rw [stepsGroups, ih, stepsGroups, Nat.add_assoc]

/-- A step through a set has no groups. -/
theorem stepsGroups_ofSet (set : CharSet) : stepsGroups [.ofSet set] = 0 := by
  unfold Step.ofSet
  split <;> rfl

mutual

/-- What is the same as itself remembers nothing. -/
theorem stepGroups_of_same (s : Step) (h : s.same s = true) : stepGroups s = 0 := by
  cases s with
  | option body lazy =>
    rw [Step.same, Bool.and_eq_true] at h
    exact stepsGroups_of_same body h.1
  | choice branches => exact branchesGroups_of_same branches h
  | capture name body => simp [Step.same] at h
  | _ => rfl

/-- A sequence that is the same as itself has no groups, since no group is the same as itself. -/
theorem stepsGroups_of_same (ss : List Step) (h : sameSteps ss ss = true) : stepsGroups ss = 0 := by
  cases ss with
  | nil => rfl
  | cons s ss =>
    rw [sameSteps, Bool.and_eq_true] at h
    rw [stepsGroups, stepGroups_of_same s h.1, stepsGroups_of_same ss h.2]

/-- Branches that are the same as themselves have no groups. -/
theorem branchesGroups_of_same (bs : List (List Step)) (h : sameBranches bs bs = true) :
    branchesGroups bs = 0 := by
  cases bs with
  | nil => rfl
  | cons b bs =>
    rw [sameBranches, Bool.and_eq_true] at h
    rw [branchesGroups, stepsGroups_of_same b h.1, branchesGroups_of_same bs h.2]

end

/-- The groups of two lists of branches are counted one after the other. -/
theorem branchesGroups_append (as bs : List (List Step)) :
    branchesGroups (as ++ bs) = branchesGroups as + branchesGroups bs := by
  induction as with
  | nil => simp [branchesGroups]
  | cons a as ih => rw [List.cons_append, branchesGroups, ih, branchesGroups, Nat.add_assoc]

/-- Taking the branches of inner choices to the outer one keeps the number of groups. -/
theorem branchesGroups_flatten (bs : List (List Step)) :
    branchesGroups (flatten bs) = branchesGroups bs := by
  induction bs with
  | nil => rfl
  | cons b bs ih =>
    rw [flatten, List.flatMap_cons, branchesGroups_append, ← flatten, ih, branchesGroups]
    split <;> simp [branchesGroups, stepsGroups, stepGroups]

/-- A choice between single characters has no groups, and any other choice keeps them. -/
theorem stepsGroups_choose (bs : List (List Step)) :
    stepsGroups (choose bs) = branchesGroups bs := by
  rw [← branchesGroups_flatten]
  unfold choose
  split
  · rename_i set hmerged
    rw [stepsGroups_ofSet, branchesGroups_eq_zero]
    unfold mergedSet? at hmerged
    split at hmerged
    · rename_i chars hchars
      intro b hb
      obtain ⟨c, hc⟩ := exists_of_mapM hchars b hb
      rw [eq_of_character? hc, stepsGroups_ofSet]
    · obtain ⟨sets, hsets, _⟩ := Option.map_eq_some_iff.mp hmerged
      intro b hb
      obtain ⟨set, hone⟩ := exists_of_mapM hsets b hb
      rw [eq_of_set? hone]
      rfl
  · rfl

/-- Where all branches begin with the same lead, its groups are counted once for each branch. -/
theorem branchesGroups_drop {lead : List Step} {bs : List (List Step)} (h : ∀ b ∈ bs, lead <+: b) :
    bs.length * stepsGroups lead + branchesGroups (bs.map (·.drop lead.length)) =
      branchesGroups bs := by
  induction bs with
  | nil => simp [branchesGroups]
  | cons b bs ih =>
    obtain ⟨⟨rest, rfl⟩, hbs⟩ := List.forall_mem_cons.mp h
    rw [List.map_cons, branchesGroups, branchesGroups, List.drop_left, stepsGroups_append, ← ih hbs,
      List.length_cons, Nat.succ_mul]
    omega

/-- What the branches share, and what they do not, has the groups of the branches. -/
theorem stepsGroups_sharedLead (bs : List (List Step)) :
    stepsGroups (sharedLead bs) + branchesGroups (remainders bs) = branchesGroups bs := by
  have hbegins : ∀ b ∈ bs, sharedLead bs <+: b := sharedLead_begins
  have hdrop := branchesGroups_drop hbegins
  match bs with
  | [] => rfl
  | [b] => simpa [remainders] using hdrop
  | b :: c :: bs =>
    have hzero : stepsGroups (sharedLead (b :: c :: bs)) = 0 :=
      stepsGroups_eq_zero fun s hs =>
        stepGroups_of_same s (same_of_mem_sharedLead (by simp) s hs)
    rw [hzero, Nat.mul_zero] at hdrop
    rw [hzero]
    exact hdrop

/-- The steps of a choice have as many groups as its branches, whatever is lifted out of them. -/
theorem stepsGroups_branchesSteps (bs : List (List Step)) :
    stepsGroups (branchesSteps bs) = branchesGroups bs := by
  have halternate : stepsGroups (alternate bs) = branchesGroups bs := by
    have hshared := stepsGroups_sharedLead (flatten bs)
    rw [branchesGroups_flatten] at hshared
    unfold alternate
    split
    · exact stepsGroups_choose bs
    · rw [stepsGroups_join, stepsGroups_choose]
      exact hshared
  unfold branchesSteps
  split
  · simp [branchesGroups]
  · exact halternate

mutual

/-- The steps of a piece remember every group that has a name. -/
theorem length_pieceNames_le (p : Piece) :
    (Tree.pieceNames p).length ≤ stepsGroups (pieceSteps p) := by
  cases p with
  | option piece lazy =>
    have hpiece := length_pieceNames_le piece
    rw [Tree.pieceNames, pieceSteps, stepsGroups, stepGroups]
    exact hpiece
  | group kind branches =>
    have hbranches := length_branchesNames_le branches
    rw [← stepsGroups_branchesSteps] at hbranches
    cases kind with
    | plain => exact hbranches
    | captured name =>
      simp only [Tree.pieceNames, pieceSteps, stepsGroups, stepGroups, List.length_append]
      have hname : (GroupKind.captured name).name?.toList.length ≤ 1 := by
        cases name <;> simp [GroupKind.name?]
      omega
  | _ => exact Nat.zero_le _

/-- The names in a sequence of pieces are no more than the groups in its steps. -/
theorem length_sequenceNames_le (ps : List Piece) :
    (Tree.sequenceNames ps).length ≤ stepsGroups (piecesSteps ps) := by
  cases ps with
  | nil => exact Nat.zero_le _
  | cons p ps =>
    rw [Tree.sequenceNames, List.length_append, piecesSteps, stepsGroups_join]
    exact Nat.add_le_add (length_pieceNames_le p) (length_sequenceNames_le ps)

/-- The names in some branches are no more than the groups in their steps. -/
theorem length_branchesNames_le (bs : List (List Piece)) :
    (Tree.branchesNames bs).length ≤ branchesGroups (treeBranches bs) := by
  cases bs with
  | nil => exact Nat.zero_le _
  | cons b bs =>
    rw [Tree.branchesNames, List.length_append, treeBranches, branchesGroups]
    exact Nat.add_le_add (length_sequenceNames_le b) (length_branchesNames_le bs)

end

/-- An expression that is not too large has fewer groups than a machine word has values. -/
theorem length_groupNames_lt_of_fits {t : Tree} (h : (ofTree t).fits = true) :
    (ofTree t).groupNames.length < Text.wordLimit := by
  have hsteps := stepsGroups_lt_of_fits h
  have hnames := length_branchesNames_le t
  rw [← stepsGroups_branchesSteps] at hnames
  exact Nat.lt_of_le_of_lt hnames hsteps

end Rejoinder.Regex
