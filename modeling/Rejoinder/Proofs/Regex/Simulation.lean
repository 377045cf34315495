import Mathlib
import Rejoinder.Proofs.Regex.Distinct

/-!
# Following all ways at once

`advance` leads to the first ways, in the order of `Step.ways`, to each place: it puts aside only
what an earlier way to the same place makes useless (`Step.advance_eq_firsts`). Where ways come to a
choice, they go through its branches in turn and are put together by their numbers. Such a list
consists of rounds, one for each way that has come to the choice, and `merge` puts together round by
round (`Rounds.merge`).

So what a search finds in a text is the first way through the expression from the beginning of the
text, if the expression begins with `^` (`find?_eq_head?`).
-/

set_option autoImplicit false

namespace Rejoinder.Regex

/-! ## Rounds -/

/-- The ways consist of rounds, numbered from `n` on, one for each of some first ways: a round keeps
what `f` makes of the first way, as far as nothing earlier has come to the same place. -/
inductive Rounds (f : Thread → List Thread) : Nat → List Text → List Thread → List Thread → Prop
  | nil (n : Nat) (seen : List Text) : Rounds f n seen [] []
  | cons {n : Nat} {seen : List Text} {t : Thread} {ts round later : List Thread}
    (number : ∀ u ∈ round, u.number = n)
    (kept : ∀ seen', seen ⊆ seen' →
      firsts Thread.rest seen' round = firsts Thread.rest seen' (f (t.enter n)))
    (rest : Rounds f (n + 1) ((f (t.enter n)).map Thread.rest ++ seen) ts later) :
    Rounds f n seen (t :: ts) (round ++ later)

namespace Rounds

variable {f g : Thread → List Thread} {n : Nat} {seen seen' : List Text} {ts us vs : List Thread}

/-- What has been seen may be more than a round needs. -/
theorem weaken (h : Rounds f n seen ts us) (hsub : seen ⊆ seen') : Rounds f n seen' ts us := by
  induction h generalizing seen' with
  | nil => exact nil _ _
  | cons number kept _ ih =>
    refine cons number (fun seen'' h => kept seen'' (List.Subset.trans hsub h)) (ih ?_)
    exact List.append_subset.mpr ⟨List.subset_append_left _ _,
      List.Subset.trans hsub (List.subset_append_right _ _)⟩

/-- The ways of the rounds have the numbers of the rounds. -/
theorem le_number (h : Rounds f n seen ts us) : ∀ u ∈ us, n ≤ u.number := by
  induction h with
  | nil => simp
  | cons number _ _ ih =>
    intro u hu
    rcases List.mem_append.mp hu with hu | hu
    · exact (number u hu).ge
    · exact (Nat.le_succ _).trans (ih u hu)

/-- No rounds at all: nothing leads through. -/
theorem empty (n : Nat) (seen : List Text) (ts : List Thread) :
    Rounds (fun _ => []) n seen ts [] := by
  induction ts generalizing n seen with
  | nil => exact nil _ _
  | cons t ts ih => exact @cons _ n seen t ts [] [] (by simp) (fun _ _ => rfl) (ih _ _)

/-- The ways that are kept from what `f` makes of some numbered ways consist of rounds. -/
theorem of_firsts (hf : ∀ t, ∀ u ∈ f t, u.number = t.number) (n : Nat) (seen : List Text)
    (ts : List Thread) :
    Rounds f n seen ts
      (firsts Thread.rest seen ((ts.zipIdx n).flatMap fun p => f (p.1.enter p.2))) := by
  induction ts generalizing n seen with
  | nil => exact nil _ _
  | cons t ts ih =>
    rw [List.zipIdx_cons, List.flatMap_cons, firsts_append]
    refine cons ?_ (fun seen' h => firsts_firsts h _) (ih _ _)
    intro u hu
    exact hf _ u (mem_of_mem_firsts hu).1

/-- What is kept from the rounds is what is kept from all that `f` makes of the first ways. -/
theorem firsts_eq (h : Rounds f n seen ts us) :
    firsts Thread.rest seen us =
      firsts Thread.rest seen ((ts.zipIdx n).flatMap fun p => f (p.1.enter p.2)) := by
  induction h with
  | nil => rfl
  | @cons n seen t ts round later _ kept _ ih =>
    have hround := kept seen (List.Subset.refl _)
    rw [List.zipIdx_cons, List.flatMap_cons, firsts_append, firsts_append, hround,
      firsts_congr (mem_keys_iff_of_firsts_eq hround), ih]

/-- Ways with numbers that are not above those of the second list stay in front. -/
theorem merge_append_left {as bs cs : List Thread}
    (h : ∀ a ∈ as, ∀ b ∈ bs, a.number ≤ b.number) :
    Regex.merge (as ++ cs) bs = as ++ Regex.merge cs bs := by
  induction as with
  | nil => rfl
  | cons a as ih =>
    obtain ⟨ha, has⟩ := List.forall_mem_cons.mp h
    cases bs with
    | nil => simp [Regex.merge]
    | cons b bs =>
      have hle : a.number ≤ b.number := ha b List.mem_cons_self
      have ih' := ih has
      unfold Regex.merge at ih' ⊢
      rw [List.cons_append, List.cons_merge_cons_pos _ _ _ (by simpa using hle), ih']
      rfl

/-- Ways of the second list with lower numbers than all of the first come first. -/
theorem merge_append_right {as bs cs : List Thread}
    (h : ∀ a ∈ as, ∀ b ∈ bs, b.number < a.number) :
    Regex.merge as (bs ++ cs) = bs ++ Regex.merge as cs := by
  induction bs with
  | nil => rfl
  | cons b bs ih =>
    have ih' := ih fun a ha b hb => h a ha b (List.mem_cons_of_mem _ hb)
    cases as with
    | nil => simp [Regex.merge]
    | cons a as =>
      have hlt : b.number < a.number := h a List.mem_cons_self b List.mem_cons_self
      unfold Regex.merge at ih' ⊢
      rw [List.cons_append, List.cons_merge_cons_neg _ _ _ (by simpa using hlt), ih']
      rfl

/-- Lists of rounds are put together round by round. -/
theorem merge (h : Rounds f n seen ts us) (h' : Rounds g n seen ts vs) :
    Rounds (fun t => f t ++ g t) n seen ts (Regex.merge us vs) := by
  induction ts generalizing n seen us vs with
  | nil =>
    cases h
    cases h'
    have hnil : Regex.merge ([] : List Thread) [] = [] := by simp [Regex.merge]
    rw [hnil]
    exact nil _ _
  | cons t ts ih =>
    cases h with
    | @cons _ _ _ _ round later number kept rest =>
    cases h' with
    | @cons _ _ _ _ round' later' number' kept' rest' =>
    have hlater : ∀ u ∈ later, ∀ v ∈ round', v.number < u.number := by
      intro u hu v hv
      rw [number' v hv]
      exact rest.le_number u hu
    have hround : ∀ u ∈ round, ∀ v ∈ round' ++ later', u.number ≤ v.number := by
      intro u hu v hv
      rw [number u hu]
      rcases List.mem_append.mp hv with hv | hv
      · exact (number' v hv).ge
      · exact (Nat.le_succ _).trans (rest'.le_number v hv)
    -- Both rounds for `t` come before everything that belongs to later ways.
    rw [merge_append_left hround, merge_append_right hlater, ← List.append_assoc]
    refine cons ?_ ?_ (ih (rest.weaken ?_) (rest'.weaken ?_))
    · intro u hu
      rcases List.mem_append.mp hu with hu | hu
      · exact number u hu
      · exact number' u hu
    · intro seen' hsub
      have hsub' : seen ⊆ (f (t.enter n)).map Thread.rest ++ seen' :=
        List.Subset.trans hsub (List.subset_append_right _ _)
      rw [firsts_append, firsts_append, kept seen' hsub,
        firsts_congr (mem_keys_iff_of_firsts_eq (kept seen' hsub)), kept' _ hsub']
    all_goals
      intro r hr
      simp only [List.map_append, List.mem_append] at hr ⊢
      grind

/-- What is left of the rounds when their numbers are given up. -/
theorem distinct_map_leave {text : Text} (h : Rounds f 0 [] ts us) (hon : OnText text us)
    (hf : ∀ t k, f (t.enter k) = (f t).map (Thread.enter · k)) :
    distinct (us.map Thread.leave) = firsts Thread.rest [] (ts.flatMap f) := by
  have hleave : OnText text (us.map Thread.leave) := by
    intro u hu
    obtain ⟨v, hv, rfl⟩ := List.mem_map.mp hu
    exact hon v hv
  have hback (t : Thread) (k : Nat) : (f (t.enter k)).map Thread.leave = f t := by
    rw [hf, List.map_map]
    exact List.map_id _
  rw [distinct_eq_firsts hleave, firsts_map]
  show (firsts Thread.rest [] us).map Thread.leave = _
  rw [h.firsts_eq]
  show (firsts (Thread.rest ∘ Thread.leave) [] _).map Thread.leave = _
  rw [← firsts_map, List.map_flatMap]
  simp only [hback]
  congr 1
  rw [← List.flatMap_map, List.zipIdx_map_fst]

end Rounds

/-! ## All ways at once and one after the other -/

section Advance

variable {text : Text} (whole : Nat)

/-- Numbers do not change places. -/
theorem map_rest_numbered (ts : List Thread) :
    (numbered ts).map Thread.rest = ts.map Thread.rest := by
  unfold numbered
  rw [List.map_map]
  show ts.zipIdx.map (Thread.rest ∘ Prod.fst) = _
  rw [← List.map_map, List.zipIdx_map_fst]

/-- Numbered ways are on the same text, each at a place of its own. -/
theorem Settled.numbered {ts : List Thread} (h : Settled text ts) :
    Settled text (numbered ts) := by
  have hon (us : List Thread) : OnText text us ↔ ∀ r ∈ us.map Thread.rest, r <:+ text := by
    simp [OnText]
  refine ⟨?_, by rw [map_rest_numbered]; exact h.apart⟩
  rw [hon, map_rest_numbered, ← hon]
  exact h.onText

/-- Noting the places of a capture leaves ways where they are. -/
theorem Settled.mark {ts : List Thread} (h : Settled text ts) (name : Option String)
    (entered : Bool) : Settled text (ts.map (Thread.mark name entered)) := by
  have hkey : Thread.rest ∘ Thread.mark name entered = Thread.rest :=
    funext fun t => Thread.rest_mark t name entered
  refine ⟨?_, by rw [List.map_map, hkey]; exact h.apart⟩
  intro u hu
  obtain ⟨t, ht, rfl⟩ := List.mem_map.mp hu
  rw [Thread.rest_mark]
  exact h.onText t ht

/-- What becomes of numbered ways, way by way. -/
theorem flatMap_numbered (ts : List Thread) (f : Thread → List Thread) :
    (numbered ts).flatMap f = (ts.zipIdx 0).flatMap fun p => f (p.1.enter p.2) := by
  unfold numbered
  rw [List.flatMap_map]

/-- Ways that go on stay on their text. -/
theorem onText_flatMap {ts : List Thread} {f : Thread → List Thread} (h : OnText text ts)
    (hf : ∀ t, ∀ u ∈ f t, u.rest <:+ t.rest) : OnText text (ts.flatMap f) := by
  intro u hu
  obtain ⟨t, ht, hu⟩ := List.mem_flatMap.mp hu
  exact (hf t u hu).trans (h t ht)

/-- A function under which different ends of the text never meet leads different ways apart. -/
theorem nodup_filterMap {ts : List Thread} (h : Settled text ts) {f : Thread → Option Thread}
    (hf : ∀ t u v w, t.rest <:+ text → u.rest <:+ text → f t = some v → f u = some w →
      v.rest = w.rest → t.rest = u.rest) :
    ((ts.filterMap f).map Thread.rest).Nodup := by
  have hpairs := List.pairwise_map.mp h.apart
  refine List.pairwise_map.mpr (List.pairwise_filterMap.mpr ?_)
  refine hpairs.imp_of_mem ?_
  intro t u ht hu hne v hv w hw hrest
  exact hne (hf t u v w (h.onText t ht) (h.onText u hu) hv hw hrest)

/-- Going on in at most one way is going on where there is a way. -/
theorem flatMap_toList (ts : List Thread) (f : Thread → Option Thread) :
    ts.flatMap (fun t => (f t).toList) = ts.filterMap f := by
  induction ts with
  | nil => rfl
  | cons t ts ih =>
    rw [List.flatMap_cons, List.filterMap_cons, ih]
    cases f t <;> rfl

/-- A function that leads different ways apart leads them to their first ways. -/
theorem filterMap_eq_firsts {ts : List Thread} (h : Settled text ts) {f : Thread → Option Thread}
    (hf : ∀ t u v w, t.rest <:+ text → u.rest <:+ text → f t = some v → f u = some w →
      v.rest = w.rest → t.rest = u.rest) :
    ts.filterMap f = firsts Thread.rest [] (ts.flatMap fun t => (f t).toList) := by
  rw [flatMap_toList, firsts_eq_self (nodup_filterMap h hf)]

/-- Stopping some of the ways keeps the others. -/
theorem flatMap_ite (ts : List Thread) (p : Thread → Prop) [DecidablePred p] :
    ts.flatMap (fun t => if p t then [t] else []) = ts.filter p := by
  induction ts with
  | nil => rfl
  | cons t ts ih =>
    rw [List.flatMap_cons, ih]
    by_cases ht : p t
    · rw [if_pos ht, List.filter_cons_of_pos (by simpa using ht)]
      rfl
    · rw [if_neg ht, List.filter_cons_of_neg (by simpa using ht)]
      rfl

/-- Ways that are only let through or not are first ways if they were. -/
theorem filter_eq_firsts {ts : List Thread} (h : Settled text ts) (p : Thread → Prop)
    [DecidablePred p] :
    ts.filter p = firsts Thread.rest [] (ts.flatMap fun t => if p t then [t] else []) := by
  rw [flatMap_ite, firsts_eq_self (h.apart.sublist (List.filter_sublist.map _))]

/-- Ways with the same numbers have the same number in the innermost choice. -/
theorem numbers_eq_number {t u : Thread} (h : u.numbers = t.numbers) : u.number = t.number := by
  rw [Thread.number, h, Thread.number]

/-- Ways on one text stay so when they are put in order. -/
theorem onText_merge {ts us : List Thread} (ht : OnText text ts) (hu : OnText text us) :
    OnText text (merge ts us) := by
  intro t h
  rcases mem_merge.mp h with h | h
  · exact ht t h
  · exact hu t h

/-- What goes through a sequence consists of rounds if only first ways are kept. -/
theorem rounds_of_eq_firsts {ss : List Step} {ts : List Thread} (h : Settled text ts)
    (hss : advanceSequence whole ss (numbered ts) =
      firsts Thread.rest [] ((numbered ts).flatMap (sequenceWays whole ss))) :
    Rounds (sequenceWays whole ss) 0 [] ts (advanceSequence whole ss (numbered ts)) ∧
      OnText text (advanceSequence whole ss (numbered ts)) := by
  rw [hss]
  constructor
  · rw [flatMap_numbered]
    refine Rounds.of_firsts ?_ 0 [] ts
    intro t u hu
    exact numbers_eq_number (numbers_of_mem_sequenceWays whole hu)
  · refine (Settled.firsts (onText_flatMap h.numbered.onText ?_)).onText
    intro t u hu
    exact rest_suffix_of_mem_sequenceWays whole ss hu

/-- The ways as they come to a choice are rounds of one way each. -/
theorem rounds_numbered {ts : List Thread} (h : Settled text ts) :
    Rounds (fun t => [t]) 0 [] ts (numbered ts) := by
  have hself := firsts_eq_self h.numbered.apart
  rw [← hself, ← List.flatMap_singleton' (numbered ts), flatMap_numbered]
  refine Rounds.of_firsts ?_ 0 [] ts
  intro t u hu
  rw [List.mem_singleton.mp hu]

mutual

/-- Going through a step keeps the first way to each place that it leads to. -/
theorem Step.advance_eq_firsts (s : Step) {ts : List Thread} (h : Settled text ts) :
    advance whole s ts = firsts Thread.rest [] (ts.flatMap (s.ways whole)) := by
  cases s with
  | literal lead =>
    -- Ways that meet behind a text have met in front of it, and here no two of them meet.
    refine filterMap_eq_firsts h ?_
    intro t u v w _ _ hv hw hrest
    obtain ⟨p, hp, rfl⟩ := Option.map_eq_some_iff.mp hv
    obtain ⟨q, hq, rfl⟩ := Option.map_eq_some_iff.mp hw
    have hpq : p.rest = q.rest := hrest
    exact (Place.behind?_eq_some_iff.mp hp).trans (hpq ▸ (Place.behind?_eq_some_iff.mp hq).symm)
  | one set =>
    refine filterMap_eq_firsts h ?_
    intro t u v w ht hu hv hw hrest
    obtain ⟨p, hp, rfl⟩ := Option.map_eq_some_iff.mp hv
    obtain ⟨q, hq, rfl⟩ := Option.map_eq_some_iff.mp hw
    have hpq : p.rest = q.rest := hrest
    obtain ⟨c, _, hc⟩ := Place.after?_eq_some_iff.mp hp
    obtain ⟨d, _, hd⟩ := Place.after?_eq_some_iff.mp hq
    refine eq_of_suffix_of_length ht hu ?_
    rw [Thread.rest, Thread.rest, hc, hd, hpq, List.length_cons, List.length_cons]
  | many set lazy => exact spread_eq_firsts h.onText
  | start => exact filter_eq_firsts h fun t => t.place.left = whole
  | stop =>
    have hstop := filter_eq_firsts h fun t => t.place.rest.isEmpty = true
    simp only [Bool.decide_eq_true] at hstop
    exact hstop
  | option body lazy =>
    -- The numbers tell which way came in, so the ways around the body find their places among those
    -- through it again.
    obtain ⟨hthrough, hon⟩ := rounds_of_eq_firsts whole h
      (advanceSequence_eq_firsts body h.numbered)
    have haround := rounds_numbered h
    have henter (t : Thread) (k : Nat) : sequenceWays whole body (t.enter k) =
        (sequenceWays whole body t).map (Thread.enter · k) := sequenceWays_enter whole body t k
    cases lazy
    · refine (hthrough.merge haround).distinct_map_leave
        (onText_merge hon h.numbered.onText) ?_
      intro t k
      rw [henter, List.map_append]
      rfl
    · refine (haround.merge hthrough).distinct_map_leave
        (onText_merge h.numbered.onText hon) ?_
      intro t k
      rw [henter, List.map_append]
      rfl
  | choice branches =>
    obtain ⟨hrounds, hon⟩ := advanceBranches_rounds branches h
    exact hrounds.distinct_map_leave hon (branchesWays_enter whole branches)
  | capture name body =>
    have hkey : Thread.rest ∘ Thread.mark name false = Thread.rest :=
      funext fun t => Thread.rest_mark t name false
    have hways : firsts Thread.rest [] (((ts.map (Thread.mark name true)).flatMap
        (sequenceWays whole body)).map (Thread.mark name false)) = _ := firsts_map _ _ _
    rw [hkey, List.map_flatMap, List.flatMap_map] at hways
    show (advanceSequence whole body (ts.map (Thread.mark name true))).map _ = _
    rw [advanceSequence_eq_firsts body (h.mark name true)]
    exact hways.symm

/-- Going through a sequence keeps the first way to each place that it leads to. -/
theorem advanceSequence_eq_firsts (ss : List Step) {ts : List Thread} (h : Settled text ts) :
    advanceSequence whole ss ts = firsts Thread.rest [] (ts.flatMap (sequenceWays whole ss)) := by
  cases ss with
  | nil =>
    show ts = firsts Thread.rest [] (ts.flatMap fun t => [t])
    rw [List.flatMap_singleton', firsts_eq_self h.apart]
  | cons s ss =>
    cases ts with
    | nil => rfl
    | cons t ts =>
      have hsettled : Settled text (advance whole s (t :: ts)) := by
        rw [Step.advance_eq_firsts s h]
        exact Settled.firsts (onText_flatMap h.onText fun u v hv =>
          Step.rest_suffix_of_mem_ways whole s hv)
      rw [advanceSequence, advanceSequence_eq_firsts ss hsettled, Step.advance_eq_firsts s h,
        firsts_flatMap_firsts (fun u v huv => map_rest_sequenceWays whole ss huv) (by simp),
        List.flatMap_assoc]
      rfl

/-- What goes through the branches of a choice consists of rounds. -/
theorem advanceBranches_rounds (bs : List (List Step)) {ts : List Thread} (h : Settled text ts) :
    Rounds (branchesWays whole bs) 0 [] ts (advanceBranches whole bs (numbered ts)) ∧
      OnText text (advanceBranches whole bs (numbered ts)) := by
  cases bs with
  | nil => exact ⟨Rounds.empty 0 [] ts, by simp [advanceBranches, OnText]⟩
  | cons b bs =>
    obtain ⟨hrounds, hon⟩ := advanceBranches_rounds bs h
    obtain ⟨hfirst, honFirst⟩ := rounds_of_eq_firsts whole h
      (advanceSequence_eq_firsts b h.numbered)
    exact ⟨hfirst.merge hrounds, onText_merge honFirst hon⟩

end

end Advance

/-! ## Searching -/

/-- Where no way comes in, none comes out. -/
theorem advanceSequence_nil (whole : Nat) (ss : List Step) : advanceSequence whole ss [] = [] := by
  cases ss <;> rfl

/-- A single way at the beginning of a text is settled on it. -/
theorem settled_start (text : Text) : Settled text [.start (.ofText text)] := by
  refine ⟨?_, by simp⟩
  intro t ht
  obtain rfl := List.mem_singleton.mp ht
  exact List.suffix_rfl

/-- An expression that begins with `^` leads nowhere from a later place. -/
theorem advanceSequence_start_eq_nil {whole : Nat} (ss : List Step) {rest : Text}
    (h : rest.length < whole) :
    advanceSequence whole (.start :: ss) [.start (.ofText rest)] = [] := by
  have hne : (Place.ofText rest).left ≠ whole := Nat.ne_of_lt h
  rw [advanceSequence]
  simp [advance, Thread.start, hne, advanceSequence_nil]

/-- An expression that begins with `^` matches at no later place. -/
theorem findFrom_eq_none {whole : Nat} {r : Regex} {ss : List Step} (hr : r.steps = .start :: ss)
    {rest : Text} (h : rest.length < whole) : findFrom whole r rest = none := by
  induction rest with
  | nil => rw [findFrom, hr, advanceSequence_start_eq_nil ss h]
  | cons c rest ih =>
    rw [findFrom, hr, advanceSequence_start_eq_nil ss h]
    exact ih (Nat.lt_of_succ_lt h)

/-- What is found of an expression that begins with `^` is its first way from the beginning. -/
theorem find?_eq_head? {r : Regex} {ss : List Step} (hr : r.steps = .start :: ss) (text : Text) :
    r.find? text =
      (sequenceWays text.length r.steps (.start (.ofText text))).head?.map Thread.marks := by
  have hways : (advanceSequence text.length r.steps [.start (.ofText text)]).head? =
      (sequenceWays text.length r.steps (.start (.ofText text))).head? := by
    rw [advanceSequence_eq_firsts _ _ (settled_start text), head?_firsts, List.flatMap_singleton]
  rw [← hways, find?]
  cases hfound : advanceSequence text.length r.steps [.start (.ofText text)] with
  | cons t ts =>
    rw [findFrom.eq_def, hfound]
    rfl
  | nil =>
    rw [findFrom.eq_def, hfound]
    cases text with
    | nil => rfl
    | cons c rest => exact findFrom_eq_none hr (Nat.lt_succ_self _)

end Rejoinder.Regex
