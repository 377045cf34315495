import Mathlib
import Rejoinder.Proofs.Regex.Normalization
import Rejoinder.Proofs.Regex.Simulation

/-!
# Expressions as they are written

`asWritten` turns a tree into steps piece by piece and simplifies nothing, so what is found of it is
what a search finds that tries every option and every branch of the tree in its place. The
expression that is compiled from the tree has the same ways (`mem_steps_iff`), but since what all
branches of a choice begin with is matched before the choice, they may come in another order. They
come in the same order if nothing but text is put before choices (`find?_asWritten`): a text can be
passed in one way at most, so it does not count whether it is passed before the choice or in every
branch.
-/

set_option autoImplicit false

namespace Rejoinder.Regex

/-! ## Steps without simplification -/

/-- A choice between some branches; the branch itself if there is only one. -/
def inTurn : List (List Step) → List Step
  | [branch] => branch
  | branches => [.choice branches]

mutual

/-- The steps of a piece, with nothing simplified. -/
def writtenPiece : Piece → List Step
  | .one cls => [.one cls.set]
  | .many cls lazy => [.many cls.set lazy]
  | .start => [.start]
  | .stop => [.stop]
  | .option piece lazy => [.option (writtenPiece piece) lazy]
  | .group .plain branches => inTurn (writtenBranches branches)
  | .group (.captured name) branches => [.capture name (inTurn (writtenBranches branches))]
termination_by structural p => p

/-- The steps of a sequence of pieces, with nothing simplified. -/
def writtenPieces : List Piece → List Step
  | [] => []
  | p :: ps => writtenPiece p ++ writtenPieces ps
termination_by structural ps => ps

/-- The steps of each branch, with nothing simplified. -/
def writtenBranches : List (List Piece) → List (List Step)
  | [] => []
  | b :: bs => writtenPieces b :: writtenBranches bs
termination_by structural bs => bs

end

/-- The regular expression that a tree describes, with nothing simplified. -/
def asWritten (t : Tree) : Regex := ⟨t.groupNames, inTurn (writtenBranches t)⟩

/-- Pieces are written one after the other. -/
theorem writtenPieces_append (ps qs : List Piece) :
    writtenPieces (ps ++ qs) = writtenPieces ps ++ writtenPieces qs := by
  induction ps with
  | nil => rfl
  | cons p ps ih => rw [List.cons_append, writtenPieces, ih, writtenPieces, List.append_assoc]

mutual

/-- The choices of a piece: what the branches of each of them stand for. -/
def pieceChoices : Piece → List (List (List Step))
  | .option piece _ => pieceChoices piece
  | .group _ branches => treeBranches branches :: branchesChoices branches
  | _ => []
termination_by structural p => p

/-- The choices of a sequence of pieces. -/
def piecesChoices : List Piece → List (List (List Step))
  | [] => []
  | p :: ps => pieceChoices p ++ piecesChoices ps
termination_by structural ps => ps

/-- The choices inside some branches. -/
def branchesChoices : List (List Piece) → List (List (List Step))
  | [] => []
  | b :: bs => piecesChoices b ++ branchesChoices bs
termination_by structural bs => bs

end

/-- What is matched before a choice, since all branches begin with it. -/
def lifted : List (List Step) → List Step
  | [_] => []
  | branches => sharedLead (flatten branches)

/-- Whether a step is a text. -/
def isText : Step → Bool
  | .literal _ => true
  | _ => false

/-- Nothing but text is put before the choices of a tree. -/
def LiftsText (t : Tree) : Prop :=
  ∀ bs ∈ treeBranches t :: branchesChoices t, ∀ s ∈ lifted bs, isText s = true

/-- Whether only text is lifted can be read off the branches of all choices. -/
instance (t : Tree) : Decidable (LiftsText t) :=
  inferInstanceAs (Decidable (∀ bs ∈ treeBranches t :: branchesChoices t,
    ∀ s ∈ lifted bs, isText s = true))

variable (whole : Nat)

/-- The ways through a choice that is written out are those through its branches. -/
theorem sequenceWays_inTurn (bs : List (List Step)) (t : Thread) :
    sequenceWays whole (inTurn bs) t = branchesWays whole bs t := by
  unfold inTurn
  split
  · simp [branchesWays]
  · exact sequenceWays_singleton whole (.choice bs) t

/-! ## Comparing ways -/

/-- A relation between lists of ways that is kept when the ways go on through parts of an expression
that stand in the relation. -/
structure Comparison (R : List Thread → List Thread → Prop) : Prop where
  refl : ∀ ts, R ts ts
  trans : ∀ {ts us vs}, R ts us → R us vs → R ts vs
  append : ∀ {ts ts' us us'}, R ts ts' → R us us' → R (ts ++ us) (ts' ++ us')
  flatMap : ∀ {ts ts'} {ss ss' : List Step}, R ts ts' →
    (∀ t, R (sequenceWays whole ss t) (sequenceWays whole ss' t)) →
    R (ts.flatMap (sequenceWays whole ss)) (ts'.flatMap (sequenceWays whole ss'))
  mark : ∀ {ts ts'} name, R ts ts' →
    R (ts.map (Thread.mark name false)) (ts'.map (Thread.mark name false))

/-- Simplifying a choice changes nothing that counts. -/
def Keeps (R : List Thread → List Thread → Prop) (bs : List (List Step)) : Prop :=
  ∀ t, R (sequenceWays whole (branchesSteps bs) t) (branchesWays whole bs t)

section Compare

variable {whole} {R : List Thread → List Thread → Prop} (hR : Comparison whole R)

include hR

mutual

/-- The ways through a piece compare if nothing that counts is changed in its choices. -/
theorem Comparison.ways_piece (p : Piece) (h : ∀ bs ∈ pieceChoices p, Keeps whole R bs)
    (t : Thread) :
    R (sequenceWays whole (pieceSteps p) t) (sequenceWays whole (writtenPiece p) t) := by
  cases p with
  | one cls =>
    rw [pieceSteps, sequenceWays_ofSet, writtenPiece, sequenceWays_one]
    exact hR.refl _
  | many cls lazy => exact hR.refl _
  | start => exact hR.refl _
  | stop => exact hR.refl _
  | option piece lazy =>
    have hpiece := Comparison.ways_piece piece h t
    rw [pieceSteps, writtenPiece, sequenceWays_singleton, sequenceWays_singleton]
    cases lazy
    · exact hR.append hpiece (hR.refl [t])
    · exact hR.append (hR.refl [t]) hpiece
  | group kind branches =>
    obtain ⟨hchoice, hbranches⟩ := List.forall_mem_cons.mp h
    have hgroup (t : Thread) : R (sequenceWays whole (branchesSteps (treeBranches branches)) t)
        (sequenceWays whole (inTurn (writtenBranches branches)) t) := by
      rw [sequenceWays_inTurn]
      exact hR.trans (hchoice t) (Comparison.ways_branches branches hbranches t)
    cases kind with
    | plain => exact hgroup t
    | captured name =>
      rw [pieceSteps, writtenPiece, sequenceWays_singleton, sequenceWays_singleton]
      exact hR.mark name (hgroup (t.mark name true))

/-- Where simplifying the choices keeps what counts, so does simplifying a sequence of pieces. -/
theorem Comparison.ways_pieces (ps : List Piece) (h : ∀ bs ∈ piecesChoices ps, Keeps whole R bs)
    (t : Thread) :
    R (sequenceWays whole (piecesSteps ps) t) (sequenceWays whole (writtenPieces ps) t) := by
  cases ps with
  | nil => exact hR.refl _
  | cons p ps =>
    obtain ⟨hp, hps⟩ := List.forall_mem_append.mp h
    rw [piecesSteps, sequenceWays_join, writtenPieces, sequenceWays_append]
    exact hR.flatMap (Comparison.ways_piece p hp t) (Comparison.ways_pieces ps hps)

/-- Where simplifying the choices keeps what counts, so does simplifying some branches. -/
theorem Comparison.ways_branches (bs : List (List Piece))
    (h : ∀ cs ∈ branchesChoices bs, Keeps whole R cs) (t : Thread) :
    R (branchesWays whole (treeBranches bs) t) (branchesWays whole (writtenBranches bs) t) := by
  cases bs with
  | nil => exact hR.refl _
  | cons b bs =>
    obtain ⟨hb, hbs⟩ := List.forall_mem_append.mp h
    exact hR.append (Comparison.ways_pieces b hb t) (Comparison.ways_branches bs hbs t)

end

/-- The ways through a simplified expression compare with those through the expression as written.
-/
theorem Comparison.ways_tree (tree : Tree)
    (h : ∀ bs ∈ treeBranches tree :: branchesChoices tree, Keeps whole R bs) (t : Thread) :
    R (sequenceWays whole (ofTree tree).steps t) (sequenceWays whole (asWritten tree).steps t) :=
  hR.ways_piece (.group .plain tree) h t

end Compare

/-! ## The same ways -/

/-- A way through a set goes on behind one member of it. -/
theorem mem_setWays {set : CharSet} {t u : Thread} :
    u ∈ setWays set t ↔ ∃ c p, set.holds c = true ∧ t.rest = c :: p.rest ∧ u = t.to p := by
  simp only [setWays, Option.mem_toList, Option.map_eq_some_iff, Place.after?_eq_some_iff,
    Thread.rest]
  grind

/-- Simplifying a choice loses no ways and adds none. -/
theorem mem_choose_iff {bs : List (List Step)} {t u : Thread} :
    u ∈ sequenceWays whole (choose bs) t ↔ u ∈ branchesWays whole bs t := by
  rw [← branchesWays_flatten]
  unfold choose
  split
  · rename_i set hset
    obtain ⟨sets, hsets, hways⟩ := exists_sets_of_mergedSet? whole hset
    simp only [sequenceWays_ofSet, hways, List.mem_flatMap, mem_setWays, hsets, List.any_eq_true]
    grind
  · rw [sequenceWays_singleton]
    rfl

/-- It does not count for a way whether what all branches begin with is passed before the choice. -/
theorem mem_branchesSteps_iff {bs : List (List Step)} {t u : Thread} :
    u ∈ sequenceWays whole (branchesSteps bs) t ↔ u ∈ branchesWays whole bs t := by
  have halternate : u ∈ sequenceWays whole (alternate bs) t ↔ u ∈ branchesWays whole bs t := by
    rw [← branchesWays_flatten]
    unfold alternate
    split
    · rw [mem_choose_iff, branchesWays_flatten]
    · rename_i lead _
      have hbegins {b : List Step} (hb : b ∈ flatten bs) :
          u ∈ sequenceWays whole b t ↔ ∃ v ∈ sequenceWays whole (sharedLead (flatten bs)) t,
            u ∈ sequenceWays whole (b.drop (sharedLead (flatten bs)).length) v := by
        obtain ⟨behind, hlead⟩ := sharedLead_begins b hb
        rw [← hlead, List.drop_left, sequenceWays_append, List.mem_flatMap]
      simp only [sequenceWays_join, List.mem_flatMap, mem_choose_iff, mem_branchesWays_iff,
        List.mem_map, exists_exists_and_eq_and]
      grind
  unfold branchesSteps
  split
  · simp [branchesWays]
  · exact halternate

/-- Having the same members is kept when ways go on. -/
theorem comparison_mem :
    Comparison whole fun ts us => ∀ u, u ∈ ts ↔ u ∈ us where
  refl _ _ := Iff.rfl
  trans h h' u := (h u).trans (h' u)
  append h h' u := by rw [List.mem_append, List.mem_append, h, h']
  flatMap h h' u := by simp only [List.mem_flatMap, h, h']
  mark name h u := by simp only [List.mem_map, h]

/-- Simplifying a sequence of pieces loses no ways and adds none. -/
theorem mem_piecesSteps_iff {ps : List Piece} {t u : Thread} :
    u ∈ sequenceWays whole (piecesSteps ps) t ↔ u ∈ sequenceWays whole (writtenPieces ps) t :=
  (comparison_mem whole).ways_pieces ps (fun _ _ _ _ => mem_branchesSteps_iff whole) t u

/-- The compiled expression has the same ways as the expression as it is written. -/
theorem mem_steps_iff (tree : Tree) (t u : Thread) :
    u ∈ sequenceWays whole (ofTree tree).steps t ↔
      u ∈ sequenceWays whole (asWritten tree).steps t :=
  (comparison_mem whole).ways_tree tree (fun _ _ _ _ => mem_branchesSteps_iff whole) t u

/-! ## The same order -/

/-- There is at most one way through texts. -/
theorem sequenceWays_of_isText {ss : List Step} (h : ∀ s ∈ ss, isText s = true) (t : Thread) :
    sequenceWays whole ss t = [] ∨ ∃ u, sequenceWays whole ss t = [u] := by
  induction ss generalizing t with
  | nil => exact Or.inr ⟨t, rfl⟩
  | cons s ss ih =>
    obtain ⟨hs, hss⟩ := List.forall_mem_cons.mp h
    cases s with
    | literal text =>
      rw [sequenceWays, Step.ways]
      cases t.place.behind? text with
      | none => exact Or.inl rfl
      | some p => simpa using ih hss (t.to p)
    | _ => simp [isText] at hs

/-- A choice before which only text is put has the same first ways. -/
theorem alike_branchesSteps {bs : List (List Step)} (h : ∀ s ∈ lifted bs, isText s = true)
    (t : Thread) :
    Alike Thread.rest (sequenceWays whole (branchesSteps bs) t) (branchesWays whole bs t) := by
  have halternate (hlead : ∀ s ∈ sharedLead (flatten bs), isText s = true) :
      Alike Thread.rest (sequenceWays whole (alternate bs) t) (branchesWays whole bs t) := by
    refine (alike_alternate whole bs t).trans (Alike.of_eq ?_)
    have hbegins : branchesWays whole (flatten bs) t = (remainders (flatten bs)).flatMap fun b =>
        (sequenceWays whole (sharedLead (flatten bs)) t).flatMap (sequenceWays whole b) := by
      rw [branchesWays_eq_flatMap, remainders, List.flatMap_map]
      refine List.flatMap_congr ?_
      intro b hb
      obtain ⟨behind, hbehind⟩ := sharedLead_begins b hb
      rw [← sequenceWays_append]
      congr 1
      rw [← hbehind, List.drop_left]
    rw [← branchesWays_flatten, hbegins]
    -- There is one way through the text at most, so it does not matter how often it is passed.
    rcases sequenceWays_of_isText whole hlead t with hnone | ⟨u, hone⟩
    · simp [hnone]
    · simp [hone, branchesWays_eq_flatMap]
  -- A single branch is no choice and is left as it is.
  match bs, h with
  | [b], _ =>
    rw [branchesWays, branchesWays, List.append_nil]
    exact Alike.refl _
  | [], h => exact halternate h
  | b :: c :: bs, h => exact halternate h

/-- Having the same first way to each place is kept when ways go on. -/
theorem comparison_alike : Comparison whole (Alike Thread.rest) where
  refl := Alike.refl
  trans := Alike.trans
  append := Alike.append
  flatMap h h' := (h.flatMap fun _ _ => map_rest_sequenceWays whole _).trans
    (Alike.flatMap_congr fun u _ => h' u)
  mark name h := by
    have hmark (ts : List Thread) :
        ts.map (Thread.mark name false) = ts.flatMap fun t => [t.mark name false] :=
      List.map_eq_flatMap
    rw [hmark, hmark]
    exact h.flatMap fun t u htu => by simp [Thread.rest_mark, htu]

/-- If nothing but text is put before choices, the compiled expression finds what the expression as
it is written finds. -/
theorem find?_asWritten {tree : Tree} (h : LiftsText tree) {ss ss' : List Step}
    (hsteps : (ofTree tree).steps = .start :: ss)
    (hwritten : (asWritten tree).steps = .start :: ss') (text : Text) :
    (ofTree tree).find? text = (asWritten tree).find? text := by
  have hways := (comparison_alike text.length).ways_tree tree
    (fun bs hbs => alike_branchesSteps text.length (h bs hbs)) (.start (.ofText text))
  rw [find?_eq_head? hsteps, find?_eq_head? hwritten, hways.head?_eq]

end Rejoinder.Regex
