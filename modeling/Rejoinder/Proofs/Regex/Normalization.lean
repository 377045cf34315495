import Mathlib
import Rejoinder.Proofs.Beginnings
import Rejoinder.Proofs.Regex.Firsts
import Rejoinder.Proofs.Regex.Ways
import Rejoinder.Regex.Normal

/-!
# What simplification keeps

An expression is simplified as it is built from its tree. Joining sequences and flattening choices
leave all ways as they are (`sequenceWays_join`, `branchesWays_flatten`), and a choice between
single characters leaves the first ways to each place as they are (`alike_choose`). What all
branches begin with is matched before the choice, so the ways through a choice are those through the
shared beginning, each of them continued by the branches in turn (`alike_alternate`). This changes
the order of the ways, but not where they lead: `Reaches` tells what can be left of a text behind a
sequence, with one lemma for each way of building a sequence.
-/

set_option autoImplicit false

namespace Rejoinder.Regex

variable (whole : Nat)

/-! ## Sequences -/

/-- Two texts are passed one after the other. -/
theorem Place.behind?_append (lead behind : Text) (p : Place) :
    p.behind? (lead ++ behind) = (p.behind? lead).bind (Place.behind? behind) := by
  refine Option.ext ?_
  intro q
  simp only [Option.bind_eq_some_iff, behind?_eq_some_iff, List.append_assoc]
  constructor
  · exact fun h => ⟨.ofText (behind ++ q.rest), h, rfl⟩
  · rintro ⟨m, hm, hq⟩
    rw [hm, hq]

/-- A text may be passed in two steps. -/
theorem Step.ways_literal_append (s t : Text) (u : Thread) :
    (Step.literal (s ++ t)).ways whole u =
      ((Step.literal s).ways whole u).flatMap ((Step.literal t).ways whole) := by
  simp only [Step.ways, Place.behind?_append]
  cases u.place.behind? s with
  | none => rfl
  | some p =>
    simp only [Option.map_some, Option.bind_some, Option.toList_some, List.flatMap_singleton]
    rfl

/-- Two joined sequences have the ways through the first, continued by those through the second. -/
theorem sequenceWays_join (as bs : List Step) (t : Thread) :
    sequenceWays whole (join as bs) t =
      (sequenceWays whole as t).flatMap (sequenceWays whole bs) := by
  fun_induction join as bs generalizing t with
  | case1 bs => simp [sequenceWays]
  | case2 s s' ts =>
    simp only [sequenceWays, Step.ways_literal_append, List.flatMap_singleton', List.flatMap_assoc]
  | case3 bs s ss _ ih =>
    simp only [sequenceWays, List.flatMap_assoc]
    exact List.flatMap_congr fun u _ => ih u

/-- The branches of a tree are the sequences of its branches, one for each. -/
theorem treeBranches_eq_map (bs : List (List Piece)) : treeBranches bs = bs.map piecesSteps := by
  induction bs with
  | nil => rfl
  | cons b bs ih => rw [treeBranches, ih, List.map_cons]

/-- Taking the branches of inner choices to the outer one keeps the ways, in their order. -/
theorem branchesWays_flatten (bs : List (List Step)) (t : Thread) :
    branchesWays whole (flatten bs) t = branchesWays whole bs t := by
  rw [branchesWays_eq_flatMap, branchesWays_eq_flatMap, flatten, List.flatMap_assoc]
  refine List.flatMap_congr ?_
  intro b _
  split
  · rename_i inner
    simp only [sequenceWays, Step.ways, List.flatMap_singleton', branchesWays_eq_flatMap]
  · rw [List.flatMap_singleton]

/-! ## Choices between single characters -/

/-- The ways through one character of a set. -/
def setWays (set : CharSet) (t : Thread) : List Thread := ((t.place.after? set).map t.to).toList

/-- The ways through a sequence of one character of a set. -/
theorem sequenceWays_one (set : CharSet) (t : Thread) :
    sequenceWays whole [.one set] t = setWays set t := by
  simp only [sequenceWays, Step.ways, List.flatMap_singleton']
  rfl

/-- The ways through a step that stands for a set, as text or as a class. -/
theorem sequenceWays_ofSet (set : CharSet) (t : Thread) :
    sequenceWays whole [.ofSet set] t = setWays set t := by
  unfold Step.ofSet
  split
  · rename_i c
    simp only [sequenceWays, Step.ways, List.flatMap_singleton', setWays]
    congr 2
    refine Option.ext ?_
    intro q
    rw [Place.behind?_eq_some_iff, Place.after?_eq_some_iff]
    simp [CharSet.holds]
  · exact sequenceWays_one whole set t

/-- At the end of a text there is no way through a set. -/
theorem setWays_of_rest_nil {set : CharSet} {t : Thread} (h : t.place.rest = []) :
    setWays set t = [] := by
  obtain ⟨⟨rest, left, hleft⟩, marks, numbers⟩ := t
  obtain rfl : rest = [] := h
  rfl

/-- Where characters are left, the only way through a set leads behind the next one, if it is a
member. -/
theorem setWays_of_rest_cons {set : CharSet} {t : Thread} {c : Char} {rest : Text}
    (h : t.place.rest = c :: rest) :
    setWays set t = if set.holds c then [t.to (.ofText rest)] else [] := by
  unfold setWays
  split
  · rename_i hc
    have hafter : t.place.after? set = some (.ofText rest) :=
      Place.after?_eq_some_iff.mpr ⟨c, hc, h⟩
    rw [hafter]
    rfl
  · rename_i hc
    cases hafter : t.place.after? set with
    | none => rfl
    | some q =>
      obtain ⟨d, hd, hrest⟩ := Place.after?_eq_some_iff.mp hafter
      obtain ⟨rfl, _⟩ := List.cons.inj (h.symm.trans hrest)
      exact absurd hd hc

/-- A choice between sets is their union. -/
theorem alike_setWays {set : CharSet} {sets : List CharSet}
    (h : ∀ c, set.holds c = sets.any (·.holds c)) (t : Thread) :
    Alike Thread.rest (setWays set t) (sets.flatMap (setWays · t)) := by
  cases hrest : t.place.rest with
  | nil =>
    rw [setWays_of_rest_nil hrest,
      List.flatMap_eq_nil_iff.mpr fun s _ => setWays_of_rest_nil hrest]
    exact Alike.refl _
  | cons c rest =>
    rw [setWays_of_rest_cons hrest, h]
    clear h
    induction sets with
    | nil => exact Alike.refl _
    | cons s sets ih =>
      rw [List.flatMap_cons, setWays_of_rest_cons hrest, List.any_cons]
      by_cases hs : s.holds c = true
      · rw [if_pos hs, if_pos (by simp [hs])]
        have hagain : Alike Thread.rest [t.to (.ofText rest)]
            ([t.to (.ofText rest)] ++
              if sets.any (·.holds c) then [t.to (.ofText rest)] else []) := by
          split
          · simp [Alike, firsts]
          · exact Alike.refl _
        exact hagain.trans ((Alike.refl _).append ih)
      · rw [if_neg hs]
        simpa [hs] using ih

/-- Where a partial function undoes another one, it undoes it on lists. -/
theorem map_of_mapM {α β : Type} {f : α → Option β} {g : β → α} (hf : ∀ a b, f a = some b → a = g b)
    {as : List α} {bs : List β} (h : as.mapM f = some bs) : as = bs.map g := by
  induction as generalizing bs with
  | nil =>
    obtain rfl : [] = bs := by simpa using h
    rfl
  | cons a as ih =>
    rw [List.mapM_cons] at h
    obtain ⟨b, hb, h⟩ := Option.bind_eq_some_iff.mp h
    obtain ⟨bs', hbs, h⟩ := Option.bind_eq_some_iff.mp h
    obtain rfl : b :: bs' = bs := by simpa using h
    rw [List.map_cons, ← hf a b hb, ← ih hbs]

/-- A sequence that is a single character is a step through it. -/
theorem eq_of_character? {ss : List Step} {c : Char} (h : character? ss = some c) :
    ss = [Step.ofSet (.only [c])] := by
  unfold character? at h
  split at h
  · obtain rfl := Option.some.inj h
    rfl
  · simp at h

/-- A sequence that is a set is a step through it. -/
theorem eq_of_set? {ss : List Step} {set : CharSet} (h : set? ss = some set) : ss = [.one set] := by
  unfold set? at h
  split at h
  · obtain rfl := Option.some.inj h
    rfl
  · simp at h

/-- A character is in a union of sets if it is in one of them. -/
theorem holds_foldl_union (set : CharSet) (sets : List CharSet) (c : Char) :
    (sets.foldl CharSet.union set).holds c = (set.holds c || sets.any (·.holds c)) := by
  induction sets generalizing set with
  | nil => simp
  | cons s sets ih => rw [List.foldl_cons, ih, CharSet.holds_union, List.any_cons, Bool.or_assoc]

/-- A choice that is simplified to a set is a choice between sets that make it up. -/
theorem exists_sets_of_mergedSet? {bs : List (List Step)} {set : CharSet}
    (h : mergedSet? bs = some set) :
    ∃ sets : List CharSet, (∀ c, set.holds c = sets.any (·.holds c)) ∧
      ∀ t, branchesWays whole bs t = sets.flatMap (setWays · t) := by
  unfold mergedSet? at h
  split at h
  · rename_i chars hchars
    obtain rfl := Option.some.inj h
    refine ⟨chars.map fun d => .only [d], ?_, ?_⟩
    · intro c
      rw [CharSet.holds_ofChars, List.any_map, Bool.eq_iff_iff]
      simp [CharSet.holds]
    · intro t
      rw [branchesWays_eq_flatMap, map_of_mapM (fun _ _ => eq_of_character?) hchars,
        List.flatMap_map, List.flatMap_map]
      simp only [sequenceWays_ofSet]
  · obtain ⟨sets, hsets, rfl⟩ := Option.map_eq_some_iff.mp h
    refine ⟨sets, ?_, ?_⟩
    · intro c
      rw [holds_foldl_union]
      simp [CharSet.empty, CharSet.holds]
    · intro t
      rw [branchesWays_eq_flatMap, map_of_mapM (fun _ _ => eq_of_set?) hsets, List.flatMap_map]
      simp only [sequenceWays_one]

/-- A choice that is simplified to a set has the same first ways. -/
theorem alike_mergedSet {bs : List (List Step)} {set : CharSet} (h : mergedSet? bs = some set)
    (t : Thread) :
    Alike Thread.rest (sequenceWays whole [.ofSet set] t) (branchesWays whole bs t) := by
  obtain ⟨sets, hsets, hways⟩ := exists_sets_of_mergedSet? whole h
  rw [sequenceWays_ofSet, hways]
  exact alike_setWays hsets t

/-- A choice that is simplified keeps the same ways as its branches, up to later ways to the same
place. -/
theorem alike_choose (bs : List (List Step)) (t : Thread) :
    Alike Thread.rest (sequenceWays whole (choose bs) t) (branchesWays whole bs t) := by
  rw [← branchesWays_flatten]
  unfold choose
  split
  · rename_i set hset
    exact alike_mergedSet whole hset t
  · simp only [sequenceWays, Step.ways, List.flatMap_singleton']
    exact Alike.refl _

/-! ## What all branches begin with -/

/-- The lead of two sequences is what they have in common at the beginning. -/
theorem commonLead_eq_common (as bs : List Step) : commonLead as bs = common Step.same as bs := by
  fun_induction commonLead as bs with
  | case1 s ss t ts hsame ih => rw [common, if_pos hsame, ih]
  | case2 s ss t ts hsame => rw [common, if_neg hsame]
  | case3 => simp_all [common]

/-- Branches of two steps or more share what they have in common. -/
theorem sharedLead_of_long {first : List Step} {others : List (List Step)}
    (h : (first :: others).all (2 ≤ ·.length) = true) :
    sharedLead (first :: others) = others.foldl (common Step.same) first := by
  rw [sharedLead, if_pos h, funext fun as => funext (commonLead_eq_common as)]

/-- Every branch begins with what the branches share. -/
theorem sharedLead_begins {bs : List (List Step)} : ∀ b ∈ bs, sharedLead bs <+: b := by
  intro b hb
  cases bs with
  | nil => simp at hb
  | cons first others =>
    by_cases hlong : (first :: others).all (2 ≤ ·.length) = true
    · rw [sharedLead_of_long hlong]
      obtain ⟨hfirst, hothers⟩ := foldl_common_begins Step.eq_of_same first others
      rcases List.mem_cons.mp hb with rfl | hb
      · exact hfirst
      · exact hothers b hb
    · rw [sharedLead, if_neg hlong]
      exact List.nil_prefix

/-- What several branches share remembers nothing. -/
theorem same_of_mem_sharedLead {bs : List (List Step)} (hmany : 2 ≤ bs.length) :
    ∀ s ∈ sharedLead bs, s.same s = true := by
  intro s hs
  match bs, hmany with
  | first :: second :: others, _ =>
    by_cases hlong : (first :: second :: others).all (2 ≤ ·.length) = true
    · rw [sharedLead_of_long hlong] at hs
      exact same_of_mem_foldl_common Step.eq_of_same (List.cons_ne_nil second others) hs
    · rw [sharedLead, if_neg hlong] at hs
      simp at hs

/-- The branches of a choice without what they share. -/
def remainders (bs : List (List Step)) : List (List Step) :=
  bs.map (·.drop (sharedLead bs).length)

/-- What the branches share is passed once, and every way through it goes on by the branches. -/
theorem alike_alternate (bs : List (List Step)) (t : Thread) :
    Alike Thread.rest (sequenceWays whole (alternate bs) t)
      ((sequenceWays whole (sharedLead (flatten bs)) t).flatMap
        (branchesWays whole (remainders (flatten bs)))) := by
  unfold alternate remainders
  split
  · rename_i hlead
    rw [hlead]
    simp only [sequenceWays, List.length_nil, List.drop_zero, List.map_id', List.flatMap_singleton]
    rw [branchesWays_flatten]
    exact alike_choose whole bs t
  · rw [sequenceWays_join]
    exact Alike.flatMap_congr fun u _ => alike_choose whole _ u

/-! ## Where sequences lead -/

/-- The sequence can lead from one rest of a text to another. -/
def Reaches (ss : List Step) (rest behind : Text) : Prop :=
  behind ∈ (sequenceWays whole ss (.start (.ofText rest))).map Thread.rest

/-- Where a way can come to depends on where it comes from only. -/
theorem mem_map_rest_iff {ss : List Step} {t : Thread} {behind : Text} :
    behind ∈ (sequenceWays whole ss t).map Thread.rest ↔ Reaches whole ss t.rest behind := by
  rw [Reaches, map_rest_sequenceWays whole ss (t := t) (u := .start (.ofText t.rest)) rfl]

/-- Ways come to a place one by one. -/
theorem mem_flatMap_rest_iff {ts : List Thread} {f : Thread → List Thread} {behind : Text}
    {P : Text → Text → Prop}
    (hf : ∀ t, behind ∈ (f t).map Thread.rest ↔ P t.rest behind) :
    behind ∈ (ts.flatMap f).map Thread.rest ↔ ∃ middle ∈ ts.map Thread.rest, P middle behind := by
  rw [List.map_flatMap, List.mem_flatMap]
  simp only [hf, List.mem_map, exists_exists_and_eq_and]

/-- The empty sequence leads nowhere else. -/
theorem reaches_nil {rest behind : Text} : Reaches whole [] rest behind ↔ behind = rest := by
  simp [Reaches, sequenceWays, Thread.rest, Thread.start, Place.ofText]

/-- Two sequences lead from one place to another through a place in between. -/
theorem reaches_append {as bs : List Step} {rest behind : Text} :
    Reaches whole (as ++ bs) rest behind ↔
      ∃ middle, Reaches whole as rest middle ∧ Reaches whole bs middle behind := by
  rw [Reaches, sequenceWays_append,
    mem_flatMap_rest_iff (P := Reaches whole bs) fun t => mem_map_rest_iff whole]
  rfl

/-- Joined sequences lead where they lead one after the other. -/
theorem reaches_join {as bs : List Step} {rest behind : Text} :
    Reaches whole (join as bs) rest behind ↔
      ∃ middle, Reaches whole as rest middle ∧ Reaches whole bs middle behind := by
  rw [Reaches, sequenceWays_join,
    mem_flatMap_rest_iff (P := Reaches whole bs) fun t => mem_map_rest_iff whole]
  rfl

/-- Branches lead where one of them leads. -/
theorem mem_branchesWays_rest_iff {bs : List (List Step)} {t : Thread} {behind : Text} :
    behind ∈ (branchesWays whole bs t).map Thread.rest ↔
      ∃ b ∈ bs, Reaches whole b t.rest behind := by
  rw [branchesWays_eq_flatMap, List.map_flatMap, List.mem_flatMap]
  simp only [mem_map_rest_iff]

/-- A sequence of one step leads where the step leads. -/
theorem reaches_singleton {s : Step} {rest behind : Text} :
    Reaches whole [s] rest behind ↔
      behind ∈ (s.ways whole (.start (.ofText rest))).map Thread.rest := by
  simp only [Reaches, sequenceWays, List.flatMap_singleton']

/-- A step through a set leads over one member of it. -/
theorem reaches_ofSet {set : CharSet} {rest behind : Text} :
    Reaches whole [.ofSet set] rest behind ↔ ∃ c, set.holds c = true ∧ rest = c :: behind := by
  rw [Reaches, sequenceWays_ofSet]
  cases rest with
  | nil => simp [setWays_of_rest_nil (t := .start (.ofText [])) rfl]
  | cons c rest =>
    rw [setWays_of_rest_cons (t := .start (.ofText (c :: rest))) rfl]
    split
    · rename_i hc
      simp only [List.map_cons, List.map_nil, List.mem_singleton, List.cons.injEq]
      constructor
      · intro h
        exact ⟨c, hc, rfl, h.symm⟩
      · rintro ⟨_, _, _, h⟩
        exact h.symm
    · rename_i hc
      simp only [List.map_nil, List.not_mem_nil, List.cons.injEq, false_iff]
      rintro ⟨d, hd, rfl, _⟩
      exact hc hd

/-- A repeated set leads over one or more members of it, whether it is lazy or not. -/
theorem reaches_many {set : CharSet} {lazy : Bool} {rest behind : Text} :
    Reaches whole [.many set lazy] rest behind ↔
      ∃ run, run ≠ [] ∧ (∀ c ∈ run, set.holds c = true) ∧ rest = run ++ behind := by
  rw [reaches_singleton, List.mem_map]
  constructor
  · rintro ⟨u, hu, rfl⟩
    obtain ⟨p, hrun, rfl⟩ := (Step.mem_ways_many whole).mp hu
    exact hrun
  · intro hrun
    exact ⟨_, (Step.mem_ways_many whole).mpr ⟨.ofText behind, hrun, rfl⟩, rfl⟩

/-- The start of a text is passed there only. -/
theorem reaches_start {rest behind : Text} :
    Reaches whole [.start] rest behind ↔ rest.length = whole ∧ behind = rest := by
  rw [reaches_singleton, List.mem_map]
  constructor
  · rintro ⟨u, hu, rfl⟩
    obtain ⟨hlength, rfl⟩ := (Step.mem_ways_start whole).mp hu
    exact ⟨hlength, rfl⟩
  · rintro ⟨hlength, rfl⟩
    exact ⟨_, (Step.mem_ways_start whole).mpr ⟨hlength, rfl⟩, rfl⟩

/-- The end of a text is passed there only. -/
theorem reaches_stop {rest behind : Text} :
    Reaches whole [.stop] rest behind ↔ rest = [] ∧ behind = rest := by
  rw [reaches_singleton, List.mem_map]
  constructor
  · rintro ⟨u, hu, rfl⟩
    obtain ⟨hnil, rfl⟩ := (Step.mem_ways_stop whole).mp hu
    exact ⟨hnil, rfl⟩
  · rintro ⟨hnil, rfl⟩
    exact ⟨_, (Step.mem_ways_stop whole).mpr ⟨hnil, rfl⟩, rfl⟩

/-- An option leads where its body leads, or nowhere else. -/
theorem reaches_option {body : List Step} {lazy : Bool} {rest behind : Text} :
    Reaches whole [.option body lazy] rest behind ↔
      behind = rest ∨ Reaches whole body rest behind := by
  rw [reaches_singleton, Reaches, List.mem_map, List.mem_map]
  simp only [Step.mem_ways_option, or_and_right, exists_or, exists_eq_left]
  exact or_congr eq_comm Iff.rfl

/-- A group leads where its body leads. -/
theorem reaches_capture {name : Option String} {body : List Step} {rest behind : Text} :
    Reaches whole [.capture name body] rest behind ↔ Reaches whole body rest behind := by
  rw [reaches_singleton]
  simp only [Step.ways, List.map_map]
  have hkey : Thread.rest ∘ Thread.mark name false = Thread.rest :=
    funext fun t => Thread.rest_mark t name false
  rw [hkey, mem_map_rest_iff, Thread.rest_mark]
  rfl

/-- A choice leads wherever one of its branches does. -/
theorem reaches_branchesSteps {bs : List (List Step)} {rest behind : Text} :
    Reaches whole (branchesSteps bs) rest behind ↔ ∃ b ∈ bs, Reaches whole b rest behind := by
  have halternate (bs : List (List Step)) :
      Reaches whole (alternate bs) rest behind ↔ ∃ b ∈ bs, Reaches whole b rest behind := by
    have hflat : (∃ b ∈ bs, Reaches whole b rest behind) ↔
        ∃ b ∈ flatten bs, Reaches whole b rest behind := by
      have hways := branchesWays_flatten whole bs (.start (.ofText rest))
      have hrest : (Thread.start (.ofText rest)).rest = rest := rfl
      rw [← hrest, ← mem_branchesWays_rest_iff, ← mem_branchesWays_rest_iff, hways]
    rw [Reaches, (alike_alternate whole bs _).mem_map_iff,
      mem_flatMap_rest_iff
        (P := fun middle behind => ∃ b ∈ remainders (flatten bs), Reaches whole b middle behind)
        fun t => mem_branchesWays_rest_iff whole, hflat]
    -- The lead is passed once for all branches, and then one of the remainders.
    constructor
    · rintro ⟨middle, hmiddle, b', hb', hreaches⟩
      obtain ⟨b, hb, rfl⟩ := List.mem_map.mp hb'
      refine ⟨b, hb, ?_⟩
      obtain ⟨behindLead, hlead⟩ := sharedLead_begins b hb
      rw [← hlead, List.drop_left] at hreaches
      rw [← hlead, reaches_append]
      exact ⟨middle, hmiddle, hreaches⟩
    · rintro ⟨b, hb, hreaches⟩
      obtain ⟨behindLead, hlead⟩ := sharedLead_begins b hb
      rw [← hlead, reaches_append] at hreaches
      obtain ⟨middle, hmiddle, hbehind⟩ := hreaches
      refine ⟨middle, hmiddle, _, List.mem_map_of_mem hb, ?_⟩
      rw [← hlead, List.drop_left]
      exact hbehind
  unfold branchesSteps
  split
  · simp
  · exact halternate bs

end Rejoinder.Regex
