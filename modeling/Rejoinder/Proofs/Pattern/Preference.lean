import Mathlib
import Rejoinder.Proofs.Pattern.Meaning
import Rejoinder.Proofs.Pattern.Mirror

/-!
# The ways of a pattern mirror its readings

The ways through the expression of a well-formed pattern, as it is written, mirror the readings of
the pattern one by one (`reads_sequence`). Words and wildcards are compared directly; a separator,
an option and a group are put around a part that is compared already, and elements are put one
behind the other.

So the match of the compiled expression tells a reading, since it is one of the ways of the
expression as written (`exists_reading_of_find?`); and it tells the preferred reading if it is the
first one of these ways (`head?_readings_of_find?`).
-/

set_option autoImplicit false

namespace Rejoinder

open Regex

namespace ResolvedPattern

/-! ## Words and wildcards -/

section Leaves

variable (whole : Nat) {lo hi : Nat}

/-- Letters that are written one by one are matched like a text. -/
theorem sequenceWays_letters (letters : Text) (t : Thread) :
    sequenceWays whole (writtenPieces (letterPieces letters)) t =
      (Step.literal letters).ways whole t := by
  induction letters generalizing t with
  | nil =>
    have hplace : t.place.behind? [] = some t.place := Place.behind?_eq_some_iff.mpr rfl
    rw [Step.ways, hplace]
    rfl
  | cons c letters ih =>
    have hletter (t : Thread) :
        (Step.one (.only [c])).ways whole t = (Step.literal [c]).ways whole t := by
      rw [← sequenceWays_singleton, ← sequenceWays_singleton, sequenceWays_one,
        ← sequenceWays_ofSet whole]
      rfl
    show ((Step.one (.only [c])).ways whole t).flatMap
      (sequenceWays whole (writtenPieces (letterPieces letters))) = _
    rw [hletter, funext ih, ← Step.ways_literal_append]
    rfl

/-- Letters that come next are passed in one way. -/
theorem sequenceWays_letters_append {letters behind : Text} {t : Thread}
    (h : t.rest = letters ++ behind) :
    sequenceWays whole (writtenPieces (letterPieces letters)) t = [t.to (.ofText behind)] := by
  have hplace : t.place.behind? letters = some (.ofText behind) :=
    Place.behind?_eq_some_iff.mpr h
  rw [sequenceWays_letters, Step.ways, hplace]
  rfl

/-- Letters that do not come next are not passed. -/
theorem sequenceWays_letters_eq_nil {letters : Text} {t : Thread} (h : ¬ letters <+: t.rest) :
    sequenceWays whole (writtenPieces (letterPieces letters)) t = [] := by
  rw [sequenceWays_letters, List.eq_nil_iff_forall_not_mem]
  intro u hu
  obtain ⟨p, hrest, _⟩ := (Step.mem_ways_literal whole).mp hu
  exact h ⟨p.rest, hrest.symm⟩

/-- A word is read where a token is that word. -/
theorem reads_word {letters : Text} (h : Token.IsWord letters) :
    Reads false true lo hi (sequenceWays whole (writtenPieces (letterPieces letters)))
      (.word letters) := by
  have hletters : ' ' ∉ letters := h.not_mem (by decide)
  intro ws hws hne
  obtain ⟨w, ws, rfl⟩ := List.exists_cons_of_ne_nil (hne rfl)
  obtain ⟨hw, hws⟩ := List.forall_mem_cons.mp hws
  have hfree := AreTokens.spaceFree hws
  have hrest : (Thread.start (.ofText (spell false (w :: ws)))).rest = w ++ Text.led ws := rfl
  by_cases hword : w = letters
  · subst hword
    have hends : atToken true ((Thread.start (.ofText (spell false (w :: ws)))).to
        (.ofText (Text.led ws))) = true := endsToken_led ws
    rw [sequenceWays_letters_append whole hrest, Reader.word, if_pos rfl,
      List.filter_cons_of_pos hends]
    exact .cons (.of_no_marks [w] rfl rfl (by simp) rfl (by simp)) .nil
  · -- A way that passes the letters of another token stops inside the token.
    have hnone : (sequenceWays whole (writtenPieces (letterPieces letters))
        (.start (.ofText (spell false (w :: ws))))).filter (atToken true) = [] := by
      rw [List.filter_eq_nil_iff]
      intro t ht hstop
      have hends : endsToken t.rest = true := hstop
      obtain ⟨us, husfree, hled⟩ := exists_of_endsToken hends
      rw [sequenceWays_letters] at ht
      obtain ⟨p, hsplit, rfl⟩ := (Step.mem_ways_literal whole).mp ht
      rw [show p.rest = Text.led us from hled] at hsplit
      have htokens := congrArg Text.tokens (hrest.symm.trans hsplit)
      rw [Text.tokens_append_led hw.1 hfree, Text.tokens_append_led hletters husfree] at htokens
      exact hword (List.cons.inj htokens).1
    rw [hnone, Reader.word, if_neg hword]
    exact .nil

/-- A space leads from the end of a token to the next one. -/
theorem reads_space (lo hi : Nat) :
    Reads true false lo hi (sequenceWays whole (writtenPieces (letterPieces [' '])))
      fun ws => [⟨ws, []⟩] := by
  intro ws _ _
  by_cases hws : ws = []
  · subst hws
    rw [sequenceWays_letters_eq_nil whole (by
      show ¬ [' '] <+: []
      simp)]
    exact .nil
  · have hrest : (Thread.start (.ofText (spell true ws))).rest = [' '] ++ Text.unwords ws :=
      Text.led_eq_of_ne_nil hws
    have hgoes : goesOn false ⟨ws, []⟩ = true := by simpa [goesOn] using hws
    rw [sequenceWays_letters_append whole hrest, List.filter_cons_of_pos rfl,
      List.filter_cons_of_pos hgoes]
    exact .cons (.of_no_marks [] rfl rfl (fun _ => hws) rfl (by simp)) .nil

/-- Whether a token ends at a place. -/
def endsTokenAt (p : Place) : Bool := endsToken p.rest

/-- Whether ways end at tokens can be seen from their places. -/
theorem filter_atToken_map_to (ps : List Place) (t : Thread) :
    (ps.map t.to).filter (atToken true) = (ps.filter endsTokenAt).map t.to :=
  List.filter_map

/-- Of the places behind the first character of a token and others, those at which tokens end are
the place behind the token and those further on. -/
theorem filter_placesBehind_cons {set : CharSet} {c : Char} (hc : set.holds c = true) {w : Text}
    (hw : ' ' ∉ w) (ws : List Text) :
    (placesBehind set (c :: (w ++ Text.led ws))).filter endsTokenAt =
      (if w = [] then [.ofText (Text.led ws)] else []) ++
        (placesBehind set (w ++ Text.led ws)).filter endsTokenAt := by
  have hends : endsTokenAt (.ofText (w ++ Text.led ws)) = true ↔ w = [] :=
    endsToken_append_iff hw ws
  rw [placesBehind, if_pos hc, List.filter_cons]
  by_cases hnil : w = []
  · subst hnil
    rw [if_pos (hends.mpr rfl), if_pos rfl]
    rfl
  · rw [if_neg (fun h => hnil (hends.mp h)), if_neg hnil, List.nil_append]

/-- A run without spaces ends no token but the first. -/
theorem filter_placesBehind_notSpace {w : Text} (hw : ' ' ∉ w) (ws : List Text) :
    (placesBehind (.allBut [' ']) (w ++ Text.led ws)).filter endsTokenAt =
      if w = [] then [] else [.ofText (Text.led ws)] := by
  induction w with
  | nil =>
    cases ws with
    | nil => rfl
    | cons w ws =>
      have hspace : (CharSet.allBut [' ']).holds ' ' = false := by decide
      rw [List.nil_append, Text.led_cons, placesBehind, hspace]
      rfl
  | cons c w ih =>
    rw [List.mem_cons, not_or] at hw
    have hc : (CharSet.allBut [' ']).holds c = true := by
      simpa [CharSet.holds] using Ne.symm hw.1
    rw [List.cons_append, filter_placesBehind_cons hc hw.2, ih hw.2,
      if_neg (List.cons_ne_nil c w)]
    split <;> rfl

/-- The characters of a token are passed, and what follows as well. -/
theorem filter_placesBehind_append {w : Text} {ws : List Text} (hw : ' ' ∉ w ∧ '\n' ∉ w)
    (h : (placesBehind (.allBut ['\n']) (Text.led ws)).filter endsTokenAt =
      (Reader.ends ws).map fun us => .ofText (Text.led us)) :
    (placesBehind (.allBut ['\n']) (w ++ Text.led ws)).filter endsTokenAt =
      (if w = [] then Reader.ends ws else ws :: Reader.ends ws).map fun us =>
        .ofText (Text.led us) := by
  induction w with
  | nil => exact h
  | cons c w ih =>
    simp only [List.mem_cons, not_or] at hw
    have hc : (CharSet.allBut ['\n']).holds c = true := by
      simpa [CharSet.holds] using Ne.symm hw.2.1
    rw [List.cons_append, filter_placesBehind_cons hc hw.1.2, ih ⟨hw.1.2, hw.2.2⟩,
      if_neg (List.cons_ne_nil c w)]
    split <;> rfl

/-- Of any characters, tokens end behind one or more tokens. -/
theorem filter_placesBehind_notLineFeed {ws : List Text} (hws : AreTokens ws) :
    (placesBehind (.allBut ['\n']) (Text.led ws)).filter endsTokenAt =
      (Reader.ends ws).map fun us => .ofText (Text.led us) := by
  induction ws with
  | nil => rfl
  | cons w ws ih =>
    obtain ⟨hw, hws⟩ := List.forall_mem_cons.mp hws
    have hspace : (CharSet.allBut ['\n']).holds ' ' = true := by decide
    rw [Text.led_cons, filter_placesBehind_cons hspace hw.1, filter_placesBehind_append hw (ih hws)]
    split <;> rfl

/-- The wildcard for one word reads a token that is not empty. -/
theorem reads_anyWord :
    Reads false true lo hi (sequenceWays whole [.many (.allBut [' ']) false]) .anyWord := by
  intro ws hws hne
  obtain ⟨w, ws, rfl⟩ := List.exists_cons_of_ne_nil (hne rfl)
  obtain ⟨hw, hws⟩ := List.forall_mem_cons.mp hws
  rw [sequenceWays_singleton]
  show List.Forall₂ _ (((placesBehind (.allBut [' ']) (w ++ Text.led ws)).reverse.map _).filter _) _
  rw [filter_atToken_map_to, List.filter_reverse, filter_placesBehind_notSpace hw.1, Reader.anyWord]
  split
  · exact .nil
  · exact .cons (.of_no_marks [w] rfl rfl (by simp) rfl (by simp)) .nil

/-- The wildcard for words reads one or more tokens, the fewest first. -/
theorem reads_anyWords :
    Reads false true lo hi (sequenceWays whole [.many (.allBut ['\n']) true]) .anyWords := by
  intro ws hws hne
  obtain ⟨w, ws, rfl⟩ := List.exists_cons_of_ne_nil (hne rfl)
  obtain ⟨hw, hws⟩ := List.forall_mem_cons.mp hws
  have hmem : ∀ us ∈ if w = [] then Reader.ends ws else ws :: Reader.ends ws,
      us ∈ Reader.ends (w :: ws) := by
    intro us hus
    split at hus
    · exact List.mem_cons_of_mem _ hus
    · exact hus
  rw [sequenceWays_singleton]
  show List.Forall₂ _ (((placesBehind (.allBut ['\n']) (w ++ Text.led ws)).map _).filter _) _
  rw [filter_atToken_map_to, filter_placesBehind_append hw (filter_placesBehind_notLineFeed hws),
    Reader.anyWords, filter_goesOn_true]
  generalize (if w = [] then Reader.ends ws else ws :: Reader.ends ws) = uss at hmem
  rw [List.map_map, List.forall₂_map_left_iff, List.forall₂_map_right_iff, List.forall₂_same]
  intro us hus
  obtain ⟨taken, htaken, hsplit⟩ := Reader.mem_ends_iff.mp (hmem us hus)
  exact .of_no_marks taken rfl rfl (by simp) hsplit fun _ _ => htaken

end Leaves

/-! ## Separators, options and groups -/

section Around

variable {whole lo hi : Nat} {ps : List Piece} {r : Reader}

/-- Reading nothing behind a part is reading the part. -/
theorem behind_stay (r : Reader) : Reader.behind r (fun ws => [⟨ws, []⟩]) = r :=
  funext fun ws => List.flatMap_singleton' (r ws)

/-- Reading a part behind nothing is reading the part. -/
theorem stay_behind (r : Reader) : Reader.behind (fun ws => [⟨ws, []⟩]) r = r := by
  funext ws
  have hfollowed (d : Reading) : (⟨ws, []⟩ : Reading).followed d = d := by
    simp [Reading.followed]
  rw [Reader.behind, List.flatMap_singleton, funext hfollowed, List.map_id']

/-- A part that cannot be empty is read behind its separator. -/
theorem Reads.separated (h : Reads false true lo hi (sequenceWays whole (writtenPieces ps)) r)
    (hle : lo ≤ hi) (hstuck : r [] = []) (started : Bool) :
    Reads started true lo hi (sequenceWays whole (writtenPieces (separatorPieces started ++ ps)))
      r := by
  cases started
  · exact h
  · have hseq := (reads_space whole lo lo).seq h (Nat.le_refl lo) hle (by simp)
      (by simp [hstuck])
    rw [stay_behind, ← writtenPieces_append] at hseq
    exact hseq

/-- A part is read together with the space behind it. -/
theorem Reads.trailed (h : Reads false true lo hi (sequenceWays whole (writtenPieces ps)) r)
    (hle : lo ≤ hi) :
    Reads false false lo hi (sequenceWays whole (writtenPieces (ps ++ letterPieces [' ']))) r := by
  have hinside : ∀ t : Thread, endsToken t.rest = false →
      ∀ u ∈ sequenceWays whole (writtenPieces (letterPieces [' '])) t, atToken false u = false := by
    intro t hstuck u hu
    have hbegins : ¬ [' '] <+: t.rest := by
      rintro ⟨rest, hrest⟩
      rw [← hrest] at hstuck
      simp [endsToken] at hstuck
    rw [sequenceWays_letters_eq_nil whole hbegins] at hu
    simp at hu
  have hseq := h.seq (reads_space whole hi hi) hle (Nat.le_refl hi)
    (fun _ t _ => hinside t) (by simp)
  rw [behind_stay, ← writtenPieces_append] at hseq
  exact hseq

/-- An option brings the space along that separates it, and may be left out. -/
theorem Reads.option (h : Reads false true lo hi (sequenceWays whole (writtenPieces ps)) r)
    (hle : lo ≤ hi) (hstuck : r [] = []) (started : Bool) :
    Reads started started lo hi (sequenceWays whole (writtenPieces [.option (.group .plain
      [if started then .one (.exactly ' ') :: ps else ps ++ [.one (.exactly ' ')]]) false]))
      (.optional r) := by
  have hways (qs : List Piece) (t : Thread) :
      sequenceWays whole (writtenPieces [.option (.group .plain [qs]) false]) t =
        sequenceWays whole (writtenPieces qs) t ++ [t] :=
    sequenceWays_singleton whole (.option (writtenPieces qs) false) t
  rw [funext (hways _)]
  cases started
  · exact (h.trailed hle).append (.stay false)
  · exact (h.separated hle hstuck true).append (.stay true)

/-- Branches are read in a group in the same order, and remembered where parts are numbered. -/
theorem Reads.grouped {captured : Bool} {next : Nat} {branches : List (List Piece)}
    (h : Reads false true (nextGroup captured next) hi
      (branchesWays whole (writtenBranches branches)) r)
    (hle : nextGroup captured next ≤ hi) :
    Reads false true next hi
      (sequenceWays whole (writtenPieces [.group (groupKind captured next) branches]))
      (.remembered captured next r) := by
  have hturn : branchesWays whole (writtenBranches branches) =
      sequenceWays whole (inTurn (writtenBranches branches)) :=
    funext fun t => (sequenceWays_inTurn whole _ t).symm
  rw [hturn] at h
  cases captured
  · have hpieces : writtenPieces [.group (groupKind false next) branches] =
        inTurn (writtenBranches branches) := List.append_nil _
    rw [hpieces]
    exact h
  · exact h.group hle

/-- A group of one branch is read as that branch, and remembered. -/
theorem Reads.grouped_singleton {captured : Bool} {next : Nat}
    (h : Reads false true (nextGroup captured next) hi (sequenceWays whole (writtenPieces ps)) r)
    (hle : nextGroup captured next ≤ hi) :
    Reads false true next hi
      (sequenceWays whole (writtenPieces [.group (groupKind captured next) [ps]]))
      (.remembered captured next r) := by
  refine Reads.grouped ?_ hle
  have hbranch : branchesWays whole (writtenBranches [ps]) =
      sequenceWays whole (writtenPieces ps) := funext fun t => List.append_nil _
  rw [hbranch]
  exact h

end Around

/-! ## Elements -/

section Elements

variable (whole : Nat) {captured : Bool} {next : Nat}

/-- Behind something, a way that has stopped inside a token leads no further. -/
theorem atToken_of_stuck {es : List ResolvedElement} (hes : resolvedElementsWellFormed es)
    {t : Thread} (ht : '\n' ∉ t.rest) (hstuck : endsToken t.rest = false) :
    ∀ u ∈ sequenceWays whole (writtenPieces (sequencePieces captured next true es)) t,
      atToken true u = false := by
  intro u hu
  rw [← mem_piecesSteps_iff] at hu
  have hreaches := (mem_map_rest_iff whole).mp (List.mem_map_of_mem hu)
  obtain ⟨ws, _, _, hrest⟩ := (reaches_started captured next es hes ht).mp hreaches
  cases ws with
  | nil =>
    show endsToken u.rest = false
    rw [← show t.rest = u.rest from hrest]
    exact hstuck
  | cons w ws =>
    rw [hrest, Text.led_cons] at hstuck
    simp [endsToken] at hstuck

/-- A required element reads nothing where no tokens are left. -/
theorem readElement_nil {e : ResolvedElement} (he : e.WellFormed) (hreq : isRequired e = true) :
    readElement captured next e [] = [] := by
  rw [List.eq_nil_iff_forall_not_mem]
  intro d hd
  obtain ⟨taken, htaken, hsplit⟩ := (readsTo_element_iff captured next e).mp ⟨d, hd, rfl⟩
  exact ne_nil_of_element e he hreq htaken (List.append_eq_nil_iff.mp hsplit.symm).1

/-- A sequence with a required element reads nothing where no tokens are left. -/
theorem readSequence_nil {es : List ResolvedElement} (hes : resolvedElementsWellFormed es)
    (hreq : HasRequired es) : readSequence captured next es [] = [] := by
  rw [List.eq_nil_iff_forall_not_mem]
  intro d hd
  obtain ⟨taken, htaken, hsplit⟩ := (readsTo_sequence_iff captured next es).mp ⟨d, hd, rfl⟩
  exact ne_nil_of_sequence es hreq hes htaken (List.append_eq_nil_iff.mp hsplit.symm).1

/-- Where no tokens are left, a sequence can only be passed without going on. -/
theorem goesOn_of_nil {es : List ResolvedElement} (hes : resolvedElementsWellFormed es) :
    ∀ d ∈ readSequence captured next es [], goesOn (es.any isRequired) d = false := by
  intro d hd
  cases hany : es.any isRequired with
  | true =>
    rw [readSequence_nil hes (List.any_eq_true.mp hany)] at hd
    simp at hd
  | false =>
    obtain ⟨taken, _, hsplit⟩ := (readsTo_sequence_iff captured next es).mp ⟨d, hd, rfl⟩
    rw [goesOn, (List.append_eq_nil_iff.mp hsplit.symm).2]
    rfl

mutual

/-- The ways through a well-formed element mirror its readings. -/
theorem reads_element (captured : Bool) (next : Nat) (started : Bool) (e : ResolvedElement)
    (he : e.WellFormed) :
    Reads started (started || isRequired e) next (next + groupCount captured e)
      (sequenceWays whole (writtenPieces (elementPieces captured next started e)))
      (readElement captured next e) := by
  -- Every element but an option stands behind its separator; an option brings its own along.
  have hrequired {ps : List Piece} (hreq : isRequired e = true)
      (h : Reads false true next (next + groupCount captured e)
        (sequenceWays whole (writtenPieces ps)) (readElement captured next e)) :
      Reads started (started || isRequired e) next (next + groupCount captured e)
        (sequenceWays whole (writtenPieces (separatorPieces started ++ ps)))
        (readElement captured next e) := by
    rw [hreq, Bool.or_true]
    exact h.separated (Nat.le_add_right _ _) (readElement_nil he hreq) started
  have hnext : nextGroup captured next = next + nextGroup captured 0 := nextGroup_eq captured next
  cases e with
  | word letters => exact hrequired rfl (reads_word whole he)
  | anyWords => exact hrequired rfl (Reads.grouped_singleton (reads_anyWords whole) hnext.le)
  | anyWord => exact hrequired rfl (Reads.grouped_singleton (reads_anyWord whole) hnext.le)
  | choice branches =>
    have hbranches := reads_branches captured (nextGroup captured next) branches he.2
    rw [hnext, Nat.add_assoc, ← hnext] at hbranches
    refine hrequired rfl (Reads.grouped hbranches ?_)
    rw [groupCount, hnext]
    omega
  | fragment name body =>
    -- Inside a fragment nothing is numbered, so its readings fit between any two numbers.
    have hbody := reads_sequence false next false body he.2
    rw [List.any_eq_true.mpr he.1, sequenceCount_false] at hbody
    exact hrequired rfl (Reads.grouped_singleton hbody.widen hnext.le)
  | optional body =>
    have hbody := reads_sequence captured next false body he.2
    rw [List.any_eq_true.mpr he.1] at hbody
    rw [isRequired, Bool.or_false]
    exact hbody.option (Nat.le_add_right _ _) (readSequence_nil he.2 he.1) started

/-- The ways through a well-formed sequence mirror its readings. -/
theorem reads_sequence (captured : Bool) (next : Nat) (started : Bool) (es : List ResolvedElement)
    (hes : resolvedElementsWellFormed es) :
    Reads started (started || es.any isRequired) next (next + sequenceCount captured es)
      (sequenceWays whole (writtenPieces (sequencePieces captured next started es)))
      (readSequence captured next es) := by
  cases es with
  | nil =>
    rw [List.any_nil, Bool.or_false]
    exact .stay started
  | cons e es =>
    have hfirst := reads_element captured next started e hes.1
    have hrest := reads_sequence captured (next + groupCount captured e)
      (started || isRequired e) es hes.2
    rw [Nat.add_assoc, ← sequenceCount, Bool.or_assoc, ← List.any_cons] at hrest
    rw [sequencePieces, writtenPieces_append, readSequence]
    refine hfirst.seq hrest (Nat.le_add_right _ _) (by rw [sequenceCount]; omega) ?_ ?_
    · intro hmiddle t ht hstuck
      rw [List.any_cons, ← Bool.or_assoc, hmiddle, Bool.true_or]
      exact atToken_of_stuck whole hes.2 ht hstuck
    · intro hmiddle
      rw [List.any_cons, ← Bool.or_assoc, hmiddle, Bool.false_or]
      exact goesOn_of_nil hes.2

/-- The ways through well-formed branches, taken in turn, mirror their readings. -/
theorem reads_branches (captured : Bool) (next : Nat) (bs : List (List ResolvedElement))
    (hbs : resolvedBranchesWellFormed bs) :
    Reads false true next (next + branchesCount captured bs)
      (branchesWays whole (writtenBranches (branchesPieces captured next bs)))
      (readBranches captured next bs) := by
  cases bs with
  | nil => exact .none
  | cons b bs =>
    have hfirst := reads_sequence captured next false b hbs.1.2
    have hothers := reads_branches captured (next + sequenceCount captured b) bs hbs.2
    rw [List.any_eq_true.mpr hbs.1.1] at hfirst
    refine (hfirst.weaken (Nat.le_refl _) ?_).append (hothers.weaken (Nat.le_add_right _ _) ?_)
    · rw [branchesCount]
      omega
    · rw [branchesCount]
      omega

end

end Elements

/-! ## Patterns -/

/-- The tokens of a message without line feeds have neither spaces nor line feeds. -/
theorem areTokens_tokens {s : Text} (hs : '\n' ∉ s) : AreTokens (Text.tokens s) := by
  have hmem {ws : List Text} {w : Text} {c : Char} (hw : w ∈ ws) (hc : c ∈ w) :
      c ∈ Text.unwords ws := by
    obtain ⟨v, ws, rfl⟩ := List.exists_cons_of_ne_nil (List.ne_nil_of_mem hw)
    rw [Text.unwords_cons]
    rcases List.mem_cons.mp hw with rfl | hw
    · exact List.mem_append_left _ hc
    · exact List.mem_append_right _ (List.mem_flatMap.mpr ⟨w, hw, List.mem_cons_of_mem _ hc⟩)
  intro w hw
  refine ⟨Text.spaceFree_tokens s w hw, ?_⟩
  intro hc
  have hline := hmem hw hc
  rw [Text.unwords_tokens] at hline
  exact hs hline

/-- The steps of an anchored pattern as it is written: the start, those of its elements, and the
end. -/
theorem asWritten_anchoredTree_steps (p : ResolvedPattern) :
    (asWritten p.anchoredTree).steps =
      .start :: (writtenPieces (sequencePieces true 0 false p) ++ [.stop]) := rfl

/-- The ways through the anchored expression are those through its pieces that end with the text. -/
theorem sequenceWays_asWritten (p : ResolvedPattern) (s : Text) :
    sequenceWays s.length (asWritten p.anchoredTree).steps (.start (.ofText s)) =
      (sequenceWays s.length (writtenPieces (sequencePieces true 0 false p))
        (.start (.ofText s))).filter fun t => t.rest.isEmpty := by
  have hstart : (Step.start).ways s.length (.start (.ofText s)) = [.start (.ofText s)] :=
    if_pos rfl
  have hstop (t : Thread) :
      sequenceWays s.length [.stop] t = if t.rest.isEmpty then [t] else [] :=
    sequenceWays_singleton s.length .stop t
  rw [asWritten_anchoredTree_steps, sequenceWays, hstart, List.flatMap_singleton,
    sequenceWays_append, funext hstop, flatMap_ite]
  simp only [Bool.decide_eq_true]

/-- The marks of a match tell the tokens of the numbered parts in a reading. -/
structure Tells (count : Nat) (marks : List Mark) (d : Reading) : Prop where
  groups : ∀ i, captured? marks (numberedName i) = (d.groups.lookup i).map Text.unwords
  names : ∀ m ∈ marks, ∃ i < count, m.name = numberedName i

variable {p : ResolvedPattern} {s : Text}

/-- The ways through the anchored expression, as it is written, tell the readings one by one. -/
theorem forall₂_tells_readings (hp : p.WellFormed) (hs : '\n' ∉ s) :
    List.Forall₂ (fun t d => Tells (sequenceCount true p) t.marks d)
      (sequenceWays s.length (asWritten p.anchoredTree).steps (.start (.ofText s)))
      (p.readings (Text.tokens s)) := by
  have hreads := reads_sequence s.length true 0 false p hp.2 (Text.tokens s) (areTokens_tokens hs)
    fun _ => Text.tokens_ne_nil s
  rw [List.any_eq_true.mpr hp.1, Nat.zero_add, Bool.false_or, filter_goesOn_true,
    show spell false (Text.tokens s) = s from Text.unwords_tokens s] at hreads
  have hends (t : Thread) : (t.rest.isEmpty && atToken true t) = t.rest.isEmpty := by
    rw [atToken]
    cases t.rest <;> rfl
  rw [sequenceWays_asWritten, ← funext hends, ← List.filter_filter]
  -- Nothing is left of the text exactly if no token is left, so both sides keep the same pairs.
  have hempty : ∀ t d, Mirrors false true 0 (sequenceCount true p) (Text.tokens s) t d →
      (t.rest.isEmpty = true ↔ d.left.isEmpty = true) := by
    intro t d hr
    rw [show t.rest = Text.led d.left from hr.rest]
    cases d.left <;> simp [Text.led]
  refine (List.rel_filter (fun t d => hempty t d) hreads).imp ?_
  intro t d hr
  refine ⟨hr.groups, ?_⟩
  intro m hm
  obtain ⟨i, _, hlt, hname⟩ := hr.names m hm
  exact ⟨i, hlt, hname⟩

/-- The match of the compiled expression tells a reading of the message. -/
theorem exists_reading_of_find? (hp : p.WellFormed) (hs : '\n' ∉ s) {marks : List Mark}
    (h : (ofTree p.anchoredTree).find? s = some marks) :
    ∃ d ∈ p.readings (Text.tokens s), Tells (sequenceCount true p) marks d := by
  rw [find?_eq_head? (ofTree_anchoredTree_steps p), Option.map_eq_some_iff] at h
  obtain ⟨t, ht, rfl⟩ := h
  have hmem := (mem_steps_iff s.length p.anchoredTree _ t).mp (List.mem_of_head? ht)
  -- The reading stands where the way stands among the ways of the expression as it is written.
  obtain ⟨i, hi, hget⟩ := List.getElem_of_mem hmem
  have htells := forall₂_tells_readings hp hs
  have hlength := htells.length_eq
  have hd : i < (p.readings (Text.tokens s)).length := hlength ▸ hi
  refine ⟨(p.readings (Text.tokens s)).get ⟨i, hd⟩, List.get_mem _ _, ?_⟩
  rw [← hget]
  exact htells.get hi hd

/-- The first match of the expression as it is written tells the preferred reading. -/
theorem head?_readings_of_find? (hp : p.WellFormed) (hs : '\n' ∉ s) {marks : List Mark}
    (h : (asWritten p.anchoredTree).find? s = some marks) :
    ∃ d, (p.readings (Text.tokens s)).head? = some d ∧ Tells (sequenceCount true p) marks d := by
  rw [find?_eq_head? (asWritten_anchoredTree_steps p), Option.map_eq_some_iff] at h
  obtain ⟨t, ht, rfl⟩ := h
  obtain ⟨ts, hways⟩ := List.head?_eq_some_iff.mp ht
  have htells := forall₂_tells_readings hp hs
  rw [hways] at htells
  obtain ⟨d, ds, hd, _, hreadings⟩ := List.forall₂_cons_left_iff.mp htells
  exact ⟨d, by rw [hreadings]; rfl, hd⟩

end ResolvedPattern

end Rejoinder
