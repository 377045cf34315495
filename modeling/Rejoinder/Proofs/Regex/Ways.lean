import Mathlib
import Rejoinder.Regex.Match

/-!
# Ways through an expression, one start at a time

`advance` takes all ways through an expression at once and keeps one way to each place. Here every
choice is tried for a single way that begins, and every way that ends is kept: `Step.ways` is what a
matcher goes through that tries one choice after the other and comes back to the last one whenever
it is stuck. The ways come in the order in which such a matcher meets them.

What a way does behind a place depends on the place only: the marks and numbers it brings along are
carried through (`Step.ways_eq_map`). Which ways there are through each kind of step is said in terms
of the text (`Step.mem_ways_literal` and the lemmas after it), and no way leaves the text
(`Step.rest_suffix_of_mem_ways`).
-/

set_option autoImplicit false

namespace Rejoinder.Regex

/-- The places behind one or more characters of a set, the nearest first. -/
def placesBehind (set : CharSet) : Text → List Place
  | [] => []
  | c :: rest => if set.holds c then .ofText rest :: placesBehind set rest else []

section Ways

variable (whole : Nat)

mutual

/-- The ways through a step that begin with a way to it, in the order in which they are tried. -/
def Step.ways : Step → Thread → List Thread
  | .literal text, t => ((t.place.behind? text).map t.to).toList
  | .one set, t => ((t.place.after? set).map t.to).toList
  | .many set lazy, t =>
    let near := placesBehind set t.place.rest
    (if lazy then near else near.reverse).map t.to
  | .start, t => if t.place.left = whole then [t] else []
  | .stop, t => if t.place.rest.isEmpty then [t] else []
  | .option body lazy, t =>
    if lazy then t :: sequenceWays body t else sequenceWays body t ++ [t]
  | .choice branches, t => branchesWays branches t
  | .capture name body, t =>
    (sequenceWays body (t.mark name true)).map (Thread.mark name false)
termination_by structural s => s

/-- The ways through a sequence that begin with a way to it. -/
def sequenceWays : List Step → Thread → List Thread
  | [], t => [t]
  | s :: ss, t => (Step.ways s t).flatMap (sequenceWays ss)
termination_by structural ss => ss

/-- The ways through one of several branches that begin with a way to them. -/
def branchesWays : List (List Step) → Thread → List Thread
  | [], _ => []
  | b :: bs, t => sequenceWays b t ++ branchesWays bs t
termination_by structural bs => bs

end

/-- The text that is left where a way has come to. -/
def Thread.rest (t : Thread) : Text := t.place.rest

/-- A way from a place, behind a way that leads to the place. -/
def Thread.behind (t u : Thread) : Thread := ⟨u.place, u.marks ++ t.marks, t.numbers⟩

/-- Places with the same rest are the same. -/
theorem Place.eq_of_rest {p q : Place} (h : p.rest = q.rest) : p = q := by
  obtain ⟨rest, left, hleft⟩ := p
  obtain ⟨rest', left', hleft'⟩ := q
  simp only at h
  simp only [Place.mk.injEq]
  exact ⟨h, by rw [hleft, hleft', h]⟩

/-- A way behind a way that has only begun is itself. -/
theorem Thread.behind_start (t : Thread) : t.behind (start t.place) = t := rfl

/-- Ways may be put behind each other in any grouping. -/
theorem Thread.behind_behind (t u v : Thread) : (t.behind u).behind v = t.behind (u.behind v) := by
  simp [behind]

/-- A mark at the end of two ways is a mark of the second one. -/
theorem Thread.behind_mark (t u : Thread) (name : Option String) (entered : Bool) :
    (t.behind u).mark name entered = t.behind (u.mark name entered) := by
  cases name <;> rfl

/-- A mark does not change the place. -/
theorem Thread.mark_place (t : Thread) (name : Option String) (entered : Bool) :
    (t.mark name entered).place = t.place := by
  cases name <;> rfl

/-- A mark does not change what is left. -/
theorem Thread.rest_mark (t : Thread) (name : Option String) (entered : Bool) :
    (t.mark name entered).rest = t.rest := by
  rw [rest, rest, mark_place]

/-! ## What a way brings along -/

mutual

/-- The ways that begin with a way are those that begin at its place, behind it. -/
theorem Step.ways_eq_map (s : Step) (t : Thread) :
    s.ways whole t = (s.ways whole (.start t.place)).map t.behind := by
  cases s with
  | literal text =>
    simp only [Step.ways, Option.toList_map, List.map_map]
    rfl
  | one set =>
    simp only [Step.ways, Option.toList_map, List.map_map]
    rfl
  | many set lazy =>
    simp only [Step.ways, List.map_map]
    rfl
  | start =>
    show (if t.place.left = whole then [t] else []) =
      (if t.place.left = whole then [Thread.start t.place] else []).map t.behind
    rw [apply_ite (List.map t.behind)]
    rfl
  | stop =>
    show (if t.place.rest.isEmpty then [t] else []) =
      (if t.place.rest.isEmpty then [Thread.start t.place] else []).map t.behind
    rw [apply_ite (List.map t.behind)]
    rfl
  | option body lazy =>
    simp only [Step.ways]
    cases lazy
    · rw [if_neg (by simp), if_neg (by simp), List.map_append, sequenceWays_eq_map body t]
      rfl
    · rw [if_pos rfl, if_pos rfl, List.map_cons, sequenceWays_eq_map body t]
      rfl
  | choice branches =>
    simp only [Step.ways]
    exact branchesWays_eq_map branches t
  | capture name body =>
    simp only [Step.ways]
    -- The first mark of the group is put behind `t`, and so is all that follows it.
    have hmark : t.mark name true = t.behind ((Thread.start t.place).mark name true) := by
      rw [← Thread.behind_mark, Thread.behind_start]
    rw [sequenceWays_eq_map body (t.mark name true),
      sequenceWays_eq_map body ((Thread.start t.place).mark name true), Thread.mark_place,
      Thread.mark_place, List.map_map, List.map_map, List.map_map]
    refine List.map_congr_left ?_
    intro u _
    simp only [Function.comp_apply]
    rw [hmark, Thread.behind_behind, Thread.behind_mark]

/-- The ways through a sequence depend on the place where they begin; what was before is put in
front. -/
theorem sequenceWays_eq_map (ss : List Step) (t : Thread) :
    sequenceWays whole ss t = (sequenceWays whole ss (.start t.place)).map t.behind := by
  cases ss with
  | nil => rfl
  | cons s ss =>
    simp only [sequenceWays]
    rw [Step.ways_eq_map s t, List.flatMap_map, List.map_flatMap]
    refine List.flatMap_congr ?_
    intro u _
    rw [sequenceWays_eq_map ss (t.behind u), sequenceWays_eq_map ss u, List.map_map]
    refine List.map_congr_left ?_
    intro v _
    exact Thread.behind_behind t u v

/-- The ways through branches depend on the place where they begin; what was before is put in front.
-/
theorem branchesWays_eq_map (bs : List (List Step)) (t : Thread) :
    branchesWays whole bs t = (branchesWays whole bs (.start t.place)).map t.behind := by
  cases bs with
  | nil => rfl
  | cons b bs =>
    simp only [branchesWays]
    rw [sequenceWays_eq_map b t, branchesWays_eq_map bs t, List.map_append]

end

/-- Where the ways through a sequence lead depends only on what is left where they begin. -/
theorem map_rest_sequenceWays (ss : List Step) {t u : Thread} (h : t.rest = u.rest) :
    (sequenceWays whole ss t).map Thread.rest = (sequenceWays whole ss u).map Thread.rest := by
  rw [sequenceWays_eq_map whole ss t, sequenceWays_eq_map whole ss u, Place.eq_of_rest h,
    List.map_map, List.map_map]
  rfl

/-- A number in an outer choice is kept on all ways through a sequence. -/
theorem sequenceWays_enter (ss : List Step) (t : Thread) (number : Nat) :
    sequenceWays whole ss (t.enter number) =
      (sequenceWays whole ss t).map (Thread.enter · number) := by
  rw [sequenceWays_eq_map whole ss t, sequenceWays_eq_map whole ss (t.enter number), List.map_map]
  rfl

/-- A number in an outer choice is kept on all ways through some branches. -/
theorem branchesWays_enter (bs : List (List Step)) (t : Thread) (number : Nat) :
    branchesWays whole bs (t.enter number) =
      (branchesWays whole bs t).map (Thread.enter · number) := by
  rw [branchesWays_eq_map whole bs t, branchesWays_eq_map whole bs (t.enter number), List.map_map]
  rfl

/-- A way through a sequence keeps its numbers in the choices around it. -/
theorem numbers_of_mem_sequenceWays {ss : List Step} {t u : Thread}
    (h : u ∈ sequenceWays whole ss t) : u.numbers = t.numbers := by
  rw [sequenceWays_eq_map] at h
  obtain ⟨v, _, rfl⟩ := List.mem_map.mp h
  rfl

/-- The ways through a sequence of one step are those through the step. -/
theorem sequenceWays_singleton (s : Step) (t : Thread) :
    sequenceWays whole [s] t = s.ways whole t :=
  List.flatMap_singleton' _

/-- The ways through two sequences in turn are those through both as one. -/
theorem sequenceWays_append (as bs : List Step) (t : Thread) :
    sequenceWays whole (as ++ bs) t =
      (sequenceWays whole as t).flatMap (sequenceWays whole bs) := by
  induction as generalizing t with
  | nil => simp [sequenceWays]
  | cons a as ih =>
    simp only [List.cons_append, sequenceWays, List.flatMap_assoc]
    exact List.flatMap_congr fun u _ => ih u

/-- The ways through branches are those through the first one, then those through the next ones. -/
theorem branchesWays_eq_flatMap (bs : List (List Step)) (t : Thread) :
    branchesWays whole bs t = bs.flatMap (sequenceWays whole · t) := by
  induction bs with
  | nil => rfl
  | cons b bs ih => rw [branchesWays, ih, List.flatMap_cons]

/-- A way through branches is a way through one of them. -/
theorem mem_branchesWays_iff {bs : List (List Step)} {t u : Thread} :
    u ∈ branchesWays whole bs t ↔ ∃ b ∈ bs, u ∈ sequenceWays whole b t := by
  rw [branchesWays_eq_flatMap, List.mem_flatMap]

/-! ## Where the ways through a step go -/

/-- A rest is found behind some characters exactly if the text is made of the two. -/
theorem restBehind?_eq_some_iff {lead rest behind : Text} :
    restBehind? lead rest = some behind ↔ rest = lead ++ behind := by
  induction lead generalizing rest with
  | nil => simp [restBehind?]
  | cons c lead ih =>
    cases rest with
    | nil => simp [restBehind?]
    | cons d rest =>
      rw [restBehind?]
      split
      · rename_i h
        rw [ih, h]
        simp
      · rename_i h
        simp [Ne.symm h]

/-- A place lies behind some characters exactly if its rest does. -/
theorem Place.behind?_eq_some_iff {lead : Text} {p q : Place} :
    p.behind? lead = some q ↔ p.rest = lead ++ q.rest := by
  rw [← restBehind?_eq_some_iff]
  unfold Place.behind?
  split
  · rename_i hnone
    simp [hnone]
  · rename_i rest hsome
    have hrest : restBehind? lead p.rest = some q.rest ↔ rest = q.rest := by
      rw [hsome, Option.some.injEq]
    rw [hrest, Option.some.injEq]
    exact ⟨congrArg Place.rest, fun h => Place.eq_of_rest h⟩

/-- A place lies behind a member of a set exactly if its rest does. -/
theorem Place.after?_eq_some_iff {set : CharSet} {p q : Place} :
    p.after? set = some q ↔ ∃ c, set.holds c = true ∧ p.rest = c :: q.rest := by
  obtain ⟨rest, left, hleft⟩ := p
  cases rest with
  | nil => simp [Place.after?]
  | cons c rest =>
    rw [Place.after?]
    split
    · rename_i hc
      rw [Option.some.injEq]
      constructor
      · rintro rfl
        exact ⟨c, hc, rfl⟩
      · rintro ⟨d, _, hrest⟩
        exact Place.eq_of_rest (List.cons.inj hrest).2
    · rename_i hc
      constructor
      · intro h
        simp at h
      · rintro ⟨d, hd, hrest⟩
        obtain ⟨rfl, _⟩ := List.cons.inj hrest
        exact absurd hd hc

/-- The places behind are those where a run of members of the set ends. -/
theorem mem_placesBehind {set : CharSet} {rest : Text} {q : Place} :
    q ∈ placesBehind set rest ↔
      ∃ run, run ≠ [] ∧ (∀ c ∈ run, set.holds c = true) ∧ rest = run ++ q.rest := by
  induction rest with
  | nil =>
    simp only [placesBehind, List.not_mem_nil, false_iff]
    rintro ⟨run, hne, _, hrest⟩
    exact hne (List.append_eq_nil_iff.mp hrest.symm).1
  | cons c rest ih =>
    rw [placesBehind]
    split
    · rename_i hc
      rw [List.mem_cons, ih]
      constructor
      · rintro (rfl | ⟨run, _, hrun, rfl⟩)
        · exact ⟨[c], by simp, by simpa using hc, rfl⟩
        · refine ⟨c :: run, by simp, ?_, rfl⟩
          exact List.forall_mem_cons.mpr ⟨hc, hrun⟩
      · rintro ⟨run, hne, hrun, hrest⟩
        obtain ⟨d, run, rfl⟩ := List.exists_cons_of_ne_nil hne
        obtain ⟨rfl, hbehind⟩ := List.cons.inj hrest
        by_cases hrun' : run = []
        · subst hrun'
          exact Or.inl (Place.eq_of_rest hbehind.symm)
        · exact Or.inr ⟨run, hrun', (List.forall_mem_cons.mp hrun).2, hbehind⟩
    · rename_i hc
      simp only [List.not_mem_nil, false_iff]
      rintro ⟨run, hne, hrun, hrest⟩
      obtain ⟨d, run, rfl⟩ := List.exists_cons_of_ne_nil hne
      obtain ⟨rfl, _⟩ := List.cons.inj hrest
      exact hc (hrun c List.mem_cons_self)

section Membership

variable {t u : Thread}

/-- A way through a text goes on behind it. -/
theorem Step.mem_ways_literal {lead : Text} :
    u ∈ (Step.literal lead).ways whole t ↔ ∃ p, t.rest = lead ++ p.rest ∧ t.to p = u := by
  simp only [Step.ways, Option.mem_toList, Option.map_eq_some_iff, Place.behind?_eq_some_iff,
    Thread.rest]

/-- A way through a character of a set goes on behind it. -/
theorem Step.mem_ways_one {set : CharSet} :
    u ∈ (Step.one set).ways whole t ↔
      ∃ p, (∃ c, set.holds c = true ∧ t.rest = c :: p.rest) ∧ t.to p = u := by
  simp only [Step.ways, Option.mem_toList, Option.map_eq_some_iff, Place.after?_eq_some_iff,
    Thread.rest]

/-- A way through one or more characters of a set goes on behind them. -/
theorem Step.mem_ways_many {set : CharSet} {lazy : Bool} :
    u ∈ (Step.many set lazy).ways whole t ↔
      ∃ p, (∃ run, run ≠ [] ∧ (∀ c ∈ run, set.holds c = true) ∧ t.rest = run ++ p.rest) ∧
        t.to p = u := by
  simp only [← mem_placesBehind, Thread.rest]
  cases lazy <;> simp [Step.ways]

/-- A way through the start of a text goes on where it is, and is there only. -/
theorem Step.mem_ways_start : u ∈ Step.start.ways whole t ↔ t.place.left = whole ∧ u = t := by
  simp only [Step.ways, List.mem_ite_nil_right, List.mem_singleton]

/-- A way through the end of a text goes on where it is, and is there only. -/
theorem Step.mem_ways_stop : u ∈ Step.stop.ways whole t ↔ t.rest = [] ∧ u = t := by
  simp only [Step.ways, List.mem_ite_nil_right, List.mem_singleton, List.isEmpty_iff, Thread.rest]

/-- Something optional is left out, or it is gone through. -/
theorem Step.mem_ways_option {body : List Step} {lazy : Bool} :
    u ∈ (Step.option body lazy).ways whole t ↔ u = t ∨ u ∈ sequenceWays whole body t := by
  simp only [Step.ways]
  split
  · exact List.mem_cons
  · rw [List.mem_append, List.mem_singleton, or_comm]

/-- A way through a group is a way through its body with the marks of the group. -/
theorem Step.mem_ways_capture {name : Option String} {body : List Step} :
    u ∈ (Step.capture name body).ways whole t ↔
      ∃ v ∈ sequenceWays whole body (t.mark name true), v.mark name false = u := by
  simp only [Step.ways, List.mem_map]

/-- A way through a sequence is a way through its first step and then through the others. -/
theorem mem_sequenceWays_cons {s : Step} {ss : List Step} :
    u ∈ sequenceWays whole (s :: ss) t ↔ ∃ v ∈ s.ways whole t, u ∈ sequenceWays whole ss v := by
  rw [sequenceWays, List.mem_flatMap]

end Membership

/-! ## Staying on the text -/

mutual

/-- What is left behind a step is an end of what was left before it. -/
theorem Step.rest_suffix_of_mem_ways (s : Step) {t u : Thread} (h : u ∈ s.ways whole t) :
    u.rest <:+ t.rest := by
  cases s with
  | literal lead =>
    obtain ⟨p, hrest, rfl⟩ := (Step.mem_ways_literal whole).mp h
    exact ⟨lead, hrest.symm⟩
  | one set =>
    obtain ⟨p, ⟨c, _, hrest⟩, rfl⟩ := (Step.mem_ways_one whole).mp h
    exact ⟨[c], hrest.symm⟩
  | many set lazy =>
    obtain ⟨p, ⟨run, _, _, hrest⟩, rfl⟩ := (Step.mem_ways_many whole).mp h
    exact ⟨run, hrest.symm⟩
  | start =>
    obtain ⟨_, rfl⟩ := (Step.mem_ways_start whole).mp h
    exact List.suffix_rfl
  | stop =>
    obtain ⟨_, rfl⟩ := (Step.mem_ways_stop whole).mp h
    exact List.suffix_rfl
  | option body lazy =>
    rcases (Step.mem_ways_option whole).mp h with rfl | hmem
    · exact List.suffix_rfl
    · exact rest_suffix_of_mem_sequenceWays body hmem
  | choice branches => exact rest_suffix_of_mem_branchesWays branches h
  | capture name body =>
    obtain ⟨v, hv, rfl⟩ := (Step.mem_ways_capture whole).mp h
    rw [Thread.rest_mark, ← Thread.rest_mark t name true]
    exact rest_suffix_of_mem_sequenceWays body hv

/-- A way through a sequence leads further into the text. -/
theorem rest_suffix_of_mem_sequenceWays (ss : List Step) {t u : Thread}
    (h : u ∈ sequenceWays whole ss t) : u.rest <:+ t.rest := by
  cases ss with
  | nil =>
    obtain rfl := List.mem_singleton.mp h
    exact List.suffix_rfl
  | cons s ss =>
    obtain ⟨v, hv, hu⟩ := (mem_sequenceWays_cons whole).mp h
    exact (rest_suffix_of_mem_sequenceWays ss hu).trans (Step.rest_suffix_of_mem_ways s hv)

/-- A way through branches leads further into the text. -/
theorem rest_suffix_of_mem_branchesWays (bs : List (List Step)) {t u : Thread}
    (h : u ∈ branchesWays whole bs t) : u.rest <:+ t.rest := by
  cases bs with
  | nil => simp [branchesWays] at h
  | cons b bs =>
    rcases List.mem_append.mp h with h | h
    · exact rest_suffix_of_mem_sequenceWays b h
    · exact rest_suffix_of_mem_branchesWays bs h

end

end Ways

end Rejoinder.Regex
