import Mathlib
import Rejoinder.Proofs.Pattern.Pieces
import Rejoinder.Proofs.Regex.Normalization
import Rejoinder.Proofs.Regex.Simulation
import Rejoinder.Proofs.Text.Fields
import Rejoinder.Rule

/-!
# What the regular expression of a pattern matches

The expression for a pattern leads from one rest of a text to another exactly if the characters in
between are words that the pattern describes, with single spaces between them. Before the first
required element of a sequence a part stands at the beginning of a token and brings the space behind
it along (`reaches_sequence`); behind it a part begins with the space that separates it
(`reaches_started`). Both are shown by recursion on the pattern.

So a rule matches a message exactly if its pattern describes the tokens of the message
(`Rule.match?_isSome_iff_describes`).
-/

set_option autoImplicit false

namespace Rejoinder

open Regex

namespace ResolvedPattern

variable {whole : Nat}

/-! ## Where pieces lead -/

/-- No pieces lead nowhere else. -/
theorem reaches_pieces_nil {rest behind : Text} :
    Reaches whole (piecesSteps []) rest behind ↔ behind = rest :=
  reaches_nil whole

/-- Pieces lead over the first one and then over the others. -/
theorem reaches_pieces_cons {p : Piece} {ps : List Piece} {rest behind : Text} :
    Reaches whole (piecesSteps (p :: ps)) rest behind ↔
      ∃ middle, Reaches whole (pieceSteps p) rest middle ∧
        Reaches whole (piecesSteps ps) middle behind :=
  reaches_join whole

/-- A single piece leads where its steps lead. -/
theorem reaches_pieces_singleton {p : Piece} {rest behind : Text} :
    Reaches whole (piecesSteps [p]) rest behind ↔ Reaches whole (pieceSteps p) rest behind := by
  rw [reaches_pieces_cons]
  simp only [reaches_pieces_nil, exists_eq_right']

/-- Two lists of pieces lead from one place to another through a place in between. -/
theorem reaches_pieces_append {ps qs : List Piece} {rest behind : Text} :
    Reaches whole (piecesSteps (ps ++ qs)) rest behind ↔
      ∃ middle, Reaches whole (piecesSteps ps) rest middle ∧
        Reaches whole (piecesSteps qs) middle behind := by
  induction ps generalizing rest with
  | nil => simp [reaches_pieces_nil]
  | cons p ps ih =>
    simp only [List.cons_append, reaches_pieces_cons, ih]
    grind

/-- A letter leads over itself. -/
theorem reaches_letter {c : Char} {rest behind : Text} :
    Reaches whole (pieceSteps (.one (.exactly c))) rest behind ↔ rest = c :: behind := by
  show Reaches whole [.ofSet (.only [c])] rest behind ↔ _
  rw [reaches_ofSet]
  simp [CharSet.holds]

/-- Letters lead over themselves, one after the other. -/
theorem reaches_letterPieces {letters rest behind : Text} :
    Reaches whole (piecesSteps (letterPieces letters)) rest behind ↔ rest = letters ++ behind := by
  induction letters generalizing rest with
  | nil => exact reaches_pieces_nil.trans eq_comm
  | cons c letters ih =>
    show Reaches whole (piecesSteps (.one (.exactly c) :: letterPieces letters)) rest behind ↔ _
    rw [reaches_pieces_cons]
    simp only [reaches_letter, ih, exists_eq_right, List.cons_append]

/-- A separator leads over the space that it stands for, if it stands for one. -/
theorem reaches_separatorPieces {started : Bool} {rest behind : Text} :
    Reaches whole (piecesSteps (separatorPieces started)) rest behind ↔
      rest = separator started ++ behind := by
  cases started
  · exact reaches_pieces_nil.trans eq_comm
  · show Reaches whole (piecesSteps (letterPieces [' '])) rest behind ↔ _
    exact reaches_letterPieces

/-- A group leads where one of its branches does, whether it is remembered or not. -/
theorem reaches_group {captured : Bool} {next : Nat} {branches : List (List Piece)}
    {rest behind : Text} :
    Reaches whole (pieceSteps (.group (groupKind captured next) branches)) rest behind ↔
      ∃ b ∈ branches, Reaches whole (piecesSteps b) rest behind := by
  have hbranches : Reaches whole (branchesSteps (treeBranches branches)) rest behind ↔
      ∃ b ∈ branches, Reaches whole (piecesSteps b) rest behind := by
    rw [reaches_branchesSteps, treeBranches_eq_map]
    simp
  cases captured
  · exact hbranches
  · exact (reaches_capture whole).trans hbranches

/-- An optional branch leads where the branch leads, or nowhere else. -/
theorem reaches_optionPiece {branch : List Piece} {rest behind : Text} :
    Reaches whole (pieceSteps (.option (.group .plain [branch]) false)) rest behind ↔
      behind = rest ∨ Reaches whole (piecesSteps branch) rest behind :=
  reaches_option whole

/-- All members of a run are allowed exactly if the excluded character is not among them. -/
theorem holds_allBut_iff {c : Char} {run : Text} :
    (∀ d ∈ run, (CharSet.allBut [c]).holds d = true) ↔ c ∉ run := by
  simp only [CharSet.holds, List.contains_cons, List.contains_nil, Bool.or_false,
    Bool.not_eq_true', beq_eq_false_iff_ne, ne_eq]
  exact ⟨fun h hmem => h c hmem rfl, fun h d hd he => h (he ▸ hd)⟩

/-- The wildcard for words leads over any text without line feeds that is not empty. -/
theorem reaches_lazyAny {rest behind : Text} :
    Reaches whole (piecesSteps [.many .notLineFeed true]) rest behind ↔
      ∃ run, run ≠ [] ∧ '\n' ∉ run ∧ rest = run ++ behind := by
  rw [reaches_pieces_singleton]
  show Reaches whole [.many (.allBut ['\n']) true] rest behind ↔ _
  simp only [reaches_many, holds_allBut_iff]

/-- The wildcard for one word leads over any text without spaces that is not empty. -/
theorem reaches_notSpaces {rest behind : Text} :
    Reaches whole (piecesSteps [.many .notSpace false]) rest behind ↔
      ∃ run, run ≠ [] ∧ ' ' ∉ run ∧ rest = run ++ behind := by
  rw [reaches_pieces_singleton]
  show Reaches whole [.many (.allBut [' ']) false] rest behind ↔ _
  simp only [reaches_many, holds_allBut_iff]

/-! ## Where patterns lead -/

mutual

/-- Something has to be there for a required element. -/
theorem ne_nil_of_element (e : ResolvedElement) (he : e.WellFormed) (hreq : isRequired e = true)
    {ws : List Text} (h : e.Describes ws) : ws ≠ [] := by
  cases e with
  | word letters =>
    rw [show ws = [letters] from h]
    simp
  | anyWords => exact h.1
  | anyWord =>
    obtain ⟨w, _, rfl⟩ := h
    simp
  | choice bs => exact ne_nil_of_branches bs he.2 h
  | optional body => simp [isRequired] at hreq
  | fragment name body => exact ne_nil_of_sequence body he.1 he.2 h

/-- Something has to be there for a sequence with a required element. -/
theorem ne_nil_of_sequence (es : List ResolvedElement) (hreq : HasRequired es)
    (hes : resolvedElementsWellFormed es) {ws : List Text} (h : sequenceDescribes es ws) :
    ws ≠ [] := by
  cases es with
  | nil =>
    obtain ⟨e, he, _⟩ := hreq
    simp at he
  | cons e es =>
    obtain ⟨first, rest, rfl, hfirst, hrest⟩ := h
    obtain ⟨e', he', hreq'⟩ := hreq
    rcases List.mem_cons.mp he' with he' | he'
    · exact List.append_ne_nil_of_left_ne_nil
        (ne_nil_of_element e hes.1 (he' ▸ hreq') hfirst) _
    · exact List.append_ne_nil_of_right_ne_nil _
        (ne_nil_of_sequence es ⟨e', he', hreq'⟩ hes.2 hrest)

/-- Well-formed branches do not describe the empty list of words. -/
theorem ne_nil_of_branches (bs : List (List ResolvedElement))
    (hbs : resolvedBranchesWellFormed bs) {ws : List Text} (h : branchesDescribe bs ws) :
    ws ≠ [] := by
  cases bs with
  | nil => exact h.elim
  | cons b bs =>
    rcases h with h | h
    · exact ne_nil_of_sequence b hbs.1.1 hbs.1.2 h
    · exact ne_nil_of_branches bs hbs.2 h

end

/-- The text begins with words that satisfy a condition, spelled in a certain way. -/
def Spells (describes : List Text → Prop) (spell : List Text → Text) (rest behind : Text) : Prop :=
  ∃ ws, describes ws ∧ Text.SpaceFree ws ∧ rest = spell ws ++ behind

/-- Spellings that agree on the words that are described may be put for each other. -/
theorem spells_congr {describes : List Text → Prop} {spell spell' : List Text → Text}
    (h : ∀ ws, describes ws → spell ws = spell' ws) {rest behind : Text} :
    Spells describes spell rest behind ↔ Spells describes spell' rest behind := by
  constructor
  · rintro ⟨ws, hws, hfree, hsplit⟩
    exact ⟨ws, hws, hfree, by rw [hsplit, h ws hws]⟩
  · rintro ⟨ws, hws, hfree, hsplit⟩
    exact ⟨ws, hws, hfree, by rw [hsplit, h ws hws]⟩

/-- Two parts that spell words spell them together. -/
theorem spells_append_iff {first last : List Text → Prop} {spell spell' join : List Text → Text}
    {R S : Text → Text → Prop} {rest behind : Text} (hrest : '\n' ∉ rest)
    (hR : ∀ middle, R rest middle ↔ Spells first spell rest middle)
    (hS : ∀ middle, '\n' ∉ middle → (S middle behind ↔ Spells last spell' middle behind))
    (hjoin : ∀ vs us, first vs → last us → spell vs ++ spell' us = join (vs ++ us)) :
    (∃ middle, R rest middle ∧ S middle behind) ↔
      Spells (fun ws => ∃ vs us, ws = vs ++ us ∧ first vs ∧ last us) join rest behind := by
  have hmiddle {vs : List Text} {middle : Text} (h : rest = spell vs ++ middle) :
      '\n' ∉ middle := by
    rw [h] at hrest
    exact fun hmem => hrest (List.mem_append_right _ hmem)
  constructor
  · rintro ⟨middle, hr, hs⟩
    obtain ⟨vs, hvs, hfree, hsplit⟩ := (hR middle).mp hr
    obtain ⟨us, hus, hfree', hsplit'⟩ := (hS middle (hmiddle hsplit)).mp hs
    refine ⟨vs ++ us, ⟨vs, us, rfl, hvs, hus⟩, hfree.append hfree', ?_⟩
    rw [hsplit, hsplit', ← hjoin vs us hvs hus, List.append_assoc]
  · rintro ⟨_, ⟨vs, us, rfl, hvs, hus⟩, hfree, hsplit⟩
    obtain ⟨hfree, hfree'⟩ := Text.spaceFree_append.mp hfree
    rw [← hjoin vs us hvs hus, List.append_assoc] at hsplit
    exact ⟨spell' us ++ behind, (hR _).mpr ⟨vs, hvs, hfree, hsplit⟩,
      (hS _ (hmiddle hsplit)).mpr ⟨us, hus, hfree', rfl⟩⟩

/-- A text begins with a word exactly if it begins with the spelling of that word. -/
theorem spells_word_iff {letters rest behind : Text} (h : Token.IsWord letters) :
    rest = letters ++ behind ↔ Spells (· = [letters]) Text.unwords rest behind := by
  have hspace : ' ' ∉ letters := h.not_mem (by decide)
  constructor
  · rintro rfl
    exact ⟨[letters], rfl, by simpa [Text.SpaceFree] using hspace, by rw [Text.unwords_singleton]⟩
  · rintro ⟨ws, rfl, _, hsplit⟩
    rwa [Text.unwords_singleton] at hsplit

/-- A text begins with characters other than spaces exactly if it begins with the spelling of a word
that is not empty. -/
theorem spells_anyWord_iff {rest behind : Text} :
    (∃ run, run ≠ [] ∧ ' ' ∉ run ∧ rest = run ++ behind) ↔
      Spells (fun ws => ∃ w, w ≠ [] ∧ ws = [w]) Text.unwords rest behind := by
  constructor
  · rintro ⟨run, hne, hspace, hsplit⟩
    exact ⟨[run], ⟨run, hne, rfl⟩, by simpa [Text.SpaceFree] using hspace,
      by rw [Text.unwords_singleton, hsplit]⟩
  · rintro ⟨ws, ⟨w, hne, rfl⟩, hfree, hsplit⟩
    rw [Text.unwords_singleton] at hsplit
    exact ⟨w, hne, hfree w List.mem_cons_self, hsplit⟩

/-- Any characters but line feeds are the tokens that they consist of. -/
theorem spells_anyWords_iff {rest behind : Text} (hrest : '\n' ∉ rest) :
    (∃ run, run ≠ [] ∧ '\n' ∉ run ∧ rest = run ++ behind) ↔
      Spells (fun ws => ws ≠ [] ∧ ws ≠ [[]]) Text.unwords rest behind := by
  constructor
  · rintro ⟨run, hne, _, hsplit⟩
    refine ⟨Text.tokens run, ⟨Text.tokens_ne_nil run, ?_⟩, Text.spaceFree_tokens run,
      by rw [Text.unwords_tokens, hsplit]⟩
    intro h
    rw [← Text.unwords_tokens run, h] at hne
    exact hne (Text.unwords_singleton [])
  · rintro ⟨ws, ⟨hsome, hne⟩, hfree, hsplit⟩
    refine ⟨Text.unwords ws, ?_, ?_, hsplit⟩
    · intro h
      rw [← Text.tokens_unwords hsome hfree, h] at hne
      exact hne rfl
    · rw [hsplit] at hrest
      exact fun hmem => hrest (List.mem_append_left _ hmem)

/-- What a separated part spells begins with the separator. -/
theorem reaches_separated {ps : List Piece} {describes : List Text → Prop} {started : Bool}
    {rest behind : Text} (hrest : '\n' ∉ rest)
    (h : ∀ middle, '\n' ∉ middle →
      (Reaches whole (piecesSteps ps) middle behind ↔
        Spells describes Text.unwords middle behind)) :
    Reaches whole (piecesSteps (separatorPieces started ++ ps)) rest behind ↔
      Spells describes (fun ws => separator started ++ Text.unwords ws) rest behind := by
  have hmiddle {middle : Text} (hsplit : rest = separator started ++ middle) : '\n' ∉ middle := by
    rw [hsplit] at hrest
    exact fun hmem => hrest (List.mem_append_right _ hmem)
  simp only [reaches_pieces_append, reaches_separatorPieces]
  constructor
  · rintro ⟨middle, hsplit, hreaches⟩
    obtain ⟨ws, hws, hfree, hsplit'⟩ := (h middle (hmiddle hsplit)).mp hreaches
    exact ⟨ws, hws, hfree, by rw [hsplit, hsplit', List.append_assoc]⟩
  · rintro ⟨ws, hws, hfree, hsplit⟩
    rw [List.append_assoc] at hsplit
    exact ⟨_, hsplit, (h _ (hmiddle hsplit)).mpr ⟨ws, hws, hfree, rfl⟩⟩

/-- An optional part that stands behind something brings the space before it along. -/
theorem reaches_optional_started {captured : Bool} {next : Nat} {body : List ResolvedElement}
    {rest behind : Text} (hrest : '\n' ∉ rest)
    (hne : ∀ ws, sequenceDescribes body ws → ws ≠ [])
    (hbody : ∀ middle, '\n' ∉ middle →
      (Reaches whole (piecesSteps (sequencePieces captured next false body)) middle behind ↔
        Spells (sequenceDescribes body) Text.unwords middle behind)) :
    Reaches whole (piecesSteps (elementPieces captured next true (.optional body))) rest behind ↔
      Spells (ResolvedElement.optional body).Describes Text.led rest behind := by
  have hpart : Reaches whole
      (piecesSteps (separatorPieces true ++ sequencePieces captured next false body)) rest behind ↔
        _ := reaches_separated hrest hbody
  show Reaches whole (piecesSteps [.option (.group .plain [_]) false]) rest behind ↔ _
  rw [reaches_pieces_singleton, reaches_optionPiece]
  constructor
  · rintro (rfl | hreaches)
    · exact ⟨[], Or.inl rfl, by simp [Text.SpaceFree], rfl⟩
    · obtain ⟨ws, hws, hfree, hsplit⟩ := hpart.mp hreaches
      refine ⟨ws, Or.inr hws, hfree, ?_⟩
      rw [hsplit, Text.led_eq_of_ne_nil (hne ws hws)]
      rfl
  · rintro ⟨ws, rfl | hws, hfree, hsplit⟩
    · exact Or.inl hsplit.symm
    · refine Or.inr (hpart.mpr ⟨ws, hws, hfree, ?_⟩)
      rw [hsplit, Text.led_eq_of_ne_nil (hne ws hws)]
      rfl

/-- An optional part that stands first brings the space behind it along. -/
theorem reaches_optional_first {captured : Bool} {next : Nat} {body : List ResolvedElement}
    {rest behind : Text} (hne : ∀ ws, sequenceDescribes body ws → ws ≠ [])
    (hbody : ∀ behind,
      (Reaches whole (piecesSteps (sequencePieces captured next false body)) rest behind ↔
        Spells (sequenceDescribes body) Text.unwords rest behind)) :
    Reaches whole (piecesSteps (elementPieces captured next false (.optional body))) rest behind ↔
      Spells (ResolvedElement.optional body).Describes Text.trailed rest behind := by
  have hspace (middle : Text) :
      Reaches whole (piecesSteps [.one (.exactly ' ')]) middle behind ↔ middle = ' ' :: behind :=
    reaches_pieces_singleton.trans reaches_letter
  show Reaches whole (piecesSteps [.option (.group .plain
    [sequencePieces captured next false body ++ [.one (.exactly ' ')]]) false]) rest behind ↔ _
  rw [reaches_pieces_singleton, reaches_optionPiece, reaches_pieces_append]
  simp only [hspace, exists_eq_right, hbody]
  constructor
  · rintro (rfl | ⟨ws, hws, hfree, hsplit⟩)
    · exact ⟨[], Or.inl rfl, by simp [Text.SpaceFree], rfl⟩
    · refine ⟨ws, Or.inr hws, hfree, ?_⟩
      rw [hsplit, Text.trailed_eq_of_ne_nil (hne ws hws), List.append_assoc]
      rfl
  · rintro ⟨ws, rfl | hws, hfree, hsplit⟩
    · exact Or.inl hsplit.symm
    · refine Or.inr ⟨ws, hws, hfree, ?_⟩
      rw [hsplit, Text.trailed_eq_of_ne_nil (hne ws hws), List.append_assoc]
      rfl

mutual

/-- A required element leads over the words that it describes, behind its separator. -/
theorem reaches_element (captured : Bool) (next : Nat) (started : Bool) (e : ResolvedElement)
    (he : e.WellFormed) (hreq : isRequired e = true) {rest behind : Text} (hrest : '\n' ∉ rest) :
    Reaches whole (piecesSteps (elementPieces captured next started e)) rest behind ↔
      Spells e.Describes (fun ws => separator started ++ Text.unwords ws) rest behind := by
  cases e with
  | word letters =>
    exact reaches_separated hrest fun middle _ => reaches_letterPieces.trans (spells_word_iff he)
  | anyWords =>
    refine reaches_separated hrest fun middle hmiddle => ?_
    rw [reaches_pieces_singleton, reaches_group]
    simp only [List.mem_singleton, exists_eq_left, reaches_lazyAny]
    exact spells_anyWords_iff hmiddle
  | anyWord =>
    refine reaches_separated hrest fun middle _ => ?_
    rw [reaches_pieces_singleton, reaches_group]
    simp only [List.mem_singleton, exists_eq_left, reaches_notSpaces]
    exact spells_anyWord_iff
  | choice branches =>
    refine reaches_separated hrest fun middle hmiddle => ?_
    rw [reaches_pieces_singleton, reaches_group]
    exact reaches_branches captured _ branches he.2 hmiddle
  | optional body => simp [isRequired] at hreq
  | fragment name body =>
    refine reaches_separated hrest fun middle hmiddle => ?_
    rw [reaches_pieces_singleton, reaches_group]
    simp only [List.mem_singleton, exists_eq_left]
    exact reaches_sequence false next body he.1 he.2 hmiddle

/-- Behind something, a sequence leads over the words that it describes, each behind a space. -/
theorem reaches_started (captured : Bool) (next : Nat) (es : List ResolvedElement)
    (hes : resolvedElementsWellFormed es) {rest behind : Text} (hrest : '\n' ∉ rest) :
    Reaches whole (piecesSteps (sequencePieces captured next true es)) rest behind ↔
      Spells (sequenceDescribes es) Text.led rest behind := by
  cases es with
  | nil =>
    rw [sequencePieces, reaches_pieces_nil]
    constructor
    · rintro rfl
      exact ⟨[], rfl, by simp [Text.SpaceFree], rfl⟩
    · rintro ⟨ws, rfl, _, hsplit⟩
      exact hsplit.symm
  | cons e es =>
    have hfirst : ∀ middle, Reaches whole (piecesSteps (elementPieces captured next true e)) rest
        middle ↔ Spells e.Describes Text.led rest middle := by
      intro middle
      by_cases hreq : isRequired e = true
      · rw [reaches_element captured next true e hes.1 hreq hrest]
        have hled : ∀ ws, e.Describes ws → separator true ++ Text.unwords ws = Text.led ws := by
          intro ws hws
          rw [Text.led_eq_of_ne_nil (ne_nil_of_element e hes.1 hreq hws)]
          rfl
        exact spells_congr hled
      · cases e with
        | optional body =>
          exact reaches_optional_started hrest
            (fun ws => ne_nil_of_sequence body hes.1.1 hes.1.2)
            fun middle hmiddle => reaches_sequence captured next body hes.1.1 hes.1.2 hmiddle
        | _ => simp [isRequired] at hreq
    rw [sequencePieces, reaches_pieces_append, Bool.true_or]
    exact spells_append_iff hrest hfirst
      (fun middle hmiddle => reaches_started captured _ es hes.2 hmiddle)
      fun vs us _ _ => (Text.led_append vs us).symm

/-- A sequence that has a required element leads over the words that it describes. -/
theorem reaches_sequence (captured : Bool) (next : Nat) (es : List ResolvedElement)
    (hreq : HasRequired es) (hes : resolvedElementsWellFormed es) {rest behind : Text}
    (hrest : '\n' ∉ rest) :
    Reaches whole (piecesSteps (sequencePieces captured next false es)) rest behind ↔
      Spells (sequenceDescribes es) Text.unwords rest behind := by
  cases es with
  | nil =>
    obtain ⟨e, he, _⟩ := hreq
    simp at he
  | cons e es =>
    rw [sequencePieces, reaches_pieces_append, Bool.false_or]
    by_cases hfirst : isRequired e = true
    · rw [hfirst]
      exact spells_append_iff hrest
        (fun middle => reaches_element captured next false e hes.1 hfirst hrest)
        (fun middle hmiddle => reaches_started captured _ es hes.2 hmiddle)
        fun vs us hvs _ => (Text.unwords_append (ne_nil_of_element e hes.1 hfirst hvs) us).symm
    · cases e with
      | optional body =>
        have hothers : HasRequired es := by
          obtain ⟨e', he', hreq'⟩ := hreq
          rcases List.mem_cons.mp he' with rfl | he'
          · exact absurd hreq' hfirst
          · exact ⟨e', he', hreq'⟩
        refine spells_append_iff hrest (fun middle => ?_)
          (fun middle hmiddle => reaches_sequence captured _ es hothers hes.2 hmiddle)
          fun vs us _ hus =>
            Text.trailed_append_unwords vs (ne_nil_of_sequence es hothers hes.2 hus)
        exact reaches_optional_first (fun ws => ne_nil_of_sequence body hes.1.1 hes.1.2)
          fun behind => reaches_sequence captured next body hes.1.1 hes.1.2 hrest
      | _ => simp [isRequired] at hfirst

/-- Some branch leads over the words that some branch describes. -/
theorem reaches_branches (captured : Bool) (next : Nat) (bs : List (List ResolvedElement))
    (hbs : resolvedBranchesWellFormed bs) {rest behind : Text} (hrest : '\n' ∉ rest) :
    (∃ b ∈ branchesPieces captured next bs, Reaches whole (piecesSteps b) rest behind) ↔
      Spells (branchesDescribe bs) Text.unwords rest behind := by
  cases bs with
  | nil =>
    simp [branchesPieces, Spells, branchesDescribe]
  | cons b bs =>
    rw [branchesPieces, List.exists_mem_cons_iff,
      reaches_sequence captured next b hbs.1.1 hbs.1.2 hrest,
      reaches_branches captured _ bs hbs.2 hrest]
    simp only [Spells, branchesDescribe, or_and_right, exists_or]

end

/-! ## The compiled expression -/

/-- The tree of the expression for a pattern, with its anchors. -/
def anchoredTree (p : ResolvedPattern) : Tree :=
  [[.start, .group .plain [sequencePieces true 0 false p], .stop]]

/-- The steps of an anchored pattern: the start, those of its elements, and the end. -/
theorem ofTree_anchoredTree_steps (p : ResolvedPattern) :
    (Regex.ofTree p.anchoredTree).steps =
      .start :: join (piecesSteps (sequencePieces true 0 false p)) [.stop] := rfl

/-- The whole expression finds something in a text exactly if it leads anywhere from its beginning.
-/
theorem find?_isSome_iff_reaches {p : ResolvedPattern} {s : Text} :
    ((Regex.ofTree p.anchoredTree).find? s).isSome = true ↔
      ∃ behind, Reaches s.length (Regex.ofTree p.anchoredTree).steps s behind := by
  rw [find?_eq_head? (ofTree_anchoredTree_steps p), Option.isSome_map, List.isSome_head?]
  constructor
  · intro hne
    obtain ⟨t, ht⟩ := List.exists_mem_of_ne_nil _ hne
    exact ⟨t.rest, List.mem_map_of_mem ht⟩
  · rintro ⟨_, h⟩
    obtain ⟨t, ht, _⟩ := List.mem_map.mp h
    exact List.ne_nil_of_mem ht

/-- The whole expression leads from the beginning of a text to its end, and does so if the text
spells words that the pattern describes. -/
theorem reaches_anchored {p : ResolvedPattern} (hp : p.WellFormed) {s : Text} (hs : '\n' ∉ s)
    {behind : Text} :
    Reaches s.length (Regex.ofTree p.anchoredTree).steps s behind ↔
      behind = [] ∧ Spells p.Describes Text.unwords s behind := by
  have hstart : Reaches s.length
      ([.start] ++ join (piecesSteps (sequencePieces true 0 false p)) [.stop]) s behind ↔ _ :=
    reaches_append s.length
  rw [ofTree_anchoredTree_steps p]
  refine hstart.trans ?_
  simp only [reaches_start, true_and, exists_eq_left, reaches_join, reaches_stop,
    reaches_sequence true 0 p hp.1 hp.2 hs]
  constructor
  · rintro ⟨_, hspells, rfl, rfl⟩
    exact ⟨rfl, hspells⟩
  · rintro ⟨rfl, hspells⟩
    exact ⟨[], hspells, rfl, rfl⟩

/-- The whole expression goes through a text exactly if the pattern describes its tokens. -/
theorem find?_isSome_iff {p : ResolvedPattern} (hp : p.WellFormed) {s : Text} (hs : '\n' ∉ s) :
    ((Regex.ofTree p.anchoredTree).find? s).isSome = true ↔ p.Describes (Text.tokens s) := by
  simp only [find?_isSome_iff_reaches, reaches_anchored hp hs, exists_eq_left]
  constructor
  · rintro ⟨ws, hws, hfree, hsplit⟩
    rw [hsplit, List.append_nil, Text.tokens_unwords (ne_nil_of_sequence p hp.1 hp.2 hws) hfree]
    exact hws
  · intro h
    exact ⟨Text.tokens s, h, Text.spaceFree_tokens s, by rw [Text.unwords_tokens, List.append_nil]⟩

end ResolvedPattern

/-- A usable expression is the simplified tree of its text, and not too large. -/
theorem Regex.of_compile {t : Text} {r : Regex} (h : Regex.compile t = .ok r) :
    ∃ tree, Tree.ofText? t = .ok tree ∧ r = Regex.ofTree tree ∧ r.fits = true := by
  obtain ⟨tree, htree, h⟩ := bind_eq_ok_iff.mp h
  refine ⟨tree, htree, ?_⟩
  have hfits : (if (Regex.ofTree tree).fits then pure (Regex.ofTree tree) else throw .tooLarge :
      Except Regex.Error Regex) = .ok r := by
    split at h
    · simp [throw, throwThe, MonadExceptOf.throw] at h
    · exact h
  split at hfits
  · rename_i hfit
    obtain rfl := Except.ok.inj hfits
    exact ⟨rfl, hfit⟩
  · simp [throw, throwThe, MonadExceptOf.throw] at hfits

/-- The expression of a pattern is that of what the pattern becomes without references. -/
theorem Pattern.exists_resolved_of_compile {p : Pattern} {alternates : Alternates} {regex : Regex}
    (hwell : p.WellFormed) (h : Grammar.bundled.compile alternates p = .ok regex) :
    ∃ q, p.resolve alternates = .ok q ∧ q.WellFormed ∧ regex = Regex.ofTree q.anchoredTree ∧
      regex.fits = true := by
  obtain ⟨body, hbody, hcompile⟩ := bind_eq_ok_iff.mp h
  obtain ⟨q, hq, rfl⟩ := map_eq_ok_iff.mp hbody
  have hqwell := Pattern.wellFormed_of_resolve hwell hq
  obtain ⟨tree, htree, hregex, hfits⟩ := Regex.of_compile (mapError_eq_ok_iff.mp hcompile)
  rw [ResolvedPattern.ofText?_anchored hqwell] at htree
  obtain rfl := Except.ok.inj htree
  exact ⟨q, hq, hqwell, hregex, hfits⟩

/-- The expression of a pattern matches what the pattern describes. -/
theorem Pattern.isMatch_iff_describes {p : Pattern} {alternates : Alternates} {regex : Regex}
    (hwell : p.WellFormed) (h : Grammar.bundled.compile alternates p = .ok regex) {s : Text}
    (hs : '\n' ∉ s) : regex.isMatch s = true ↔ p.Describes alternates (Text.tokens s) := by
  obtain ⟨q, hq, hqwell, rfl, _⟩ := Pattern.exists_resolved_of_compile hwell h
  rw [Regex.isMatch, ResolvedPattern.find?_isSome_iff hqwell hs]
  exact Pattern.describes_resolve_iff hq _

namespace Rule

/-- The matcher of a compiled rule is what compiling its patterns gives. -/
theorem compileMatcher_of_compile {g : Grammar} {r : Rule} {alternates : Alternates} {m : Matcher}
    (h : (r.compile g alternates).matcher = some m) : r.compileMatcher g alternates = .ok m := by
  cases hc : r.compileMatcher g alternates with
  | error e => simp [compile, hc, Except.toOption] at h
  | ok m' =>
    simp only [compile, hc, Except.toOption, Option.some.injEq] at h
    rw [h]

/-- What a rule has compiled is the expression of its resolved pattern. -/
theorem matcher_of_compile {r : Rule} {alternates : Alternates} {m : Matcher}
    (hwell : r.pattern.WellFormed) (h : (r.compile Grammar.bundled alternates).matcher = some m) :
    ∃ q, r.pattern.resolve alternates = .ok q ∧ q.WellFormed ∧
      m.pattern = Regex.ofTree q.anchoredTree ∧ m.pattern.fits = true := by
  obtain ⟨regex, hregex, hrest⟩ := bind_eq_ok_iff.mp (compileMatcher_of_compile h)
  obtain ⟨previous, _, hdone⟩ := bind_eq_ok_iff.mp hrest
  obtain rfl := Except.ok.inj hdone
  exact Pattern.exists_resolved_of_compile hwell hregex

/-- A rule without a previous pattern answers whenever its expression matches. -/
theorem match?_of_previous {g : Grammar} {r : Rule} {alternates : Alternates} {m : Matcher}
    (hprevious : r.previous = none) (h : (r.compile g alternates).matcher = some m) (s : Text) :
    (r.compile g alternates).match? s none =
      (m.pattern.find? s).map (groupsOf m.pattern.groupNames) := by
  obtain ⟨regex, _, hrest⟩ := bind_eq_ok_iff.mp (compileMatcher_of_compile h)
  obtain ⟨previous, hmap, hdone⟩ := bind_eq_ok_iff.mp hrest
  obtain rfl := Except.ok.inj hdone
  rw [hprevious] at hmap
  obtain rfl := Except.ok.inj hmap
  rw [match?, h, Option.bind_eq_bind, Option.bind_some]
  show (if true = true then _ else _) = _
  rw [if_pos rfl]
  cases regex.find? s <;> rfl

/-- A rule matches a message exactly if its pattern describes the tokens of the message, whatever
the alternates are with which it has been compiled. -/
theorem match?_isSome_iff_describes {name : String} {spec : RuleSpec} {r : Rule}
    {alternates : Alternates} (hspec : Rule.ofSpec Grammar.bundled name spec = .ok r)
    (hprevious : r.previous = none)
    (hcompiled : (r.compile Grammar.bundled alternates).isCompiled = true) {s : Text}
    (hs : '\n' ∉ s) :
    ((r.compile Grammar.bundled alternates).match? s none).isSome = true ↔
      r.pattern.Describes alternates (Text.tokens s) := by
  obtain ⟨m, hm⟩ := Option.isSome_iff_exists.mp hcompiled
  obtain ⟨hwell, _⟩ := Rule.of_ofSpec hspec
  obtain ⟨q, hq, hqwell, hregex, _⟩ := matcher_of_compile hwell hm
  rw [match?_of_previous hprevious hm, Option.isSome_map, hregex,
    ResolvedPattern.find?_isSome_iff hqwell hs]
  exact Pattern.describes_resolve_iff hq _

/-- An optional part that is left out, a wildcard, and a choice with a reference in a branch. -/
theorem match?_isSome_iff_describes_reference :
    let alternates : Alternates := ⟨[("later", "_ times")], by simp⟩
    let spec : RuleSpec :=
      ⟨"say", "[please] say * (now|%a:later)", "", 0, ⟨.shared "say", []⟩⟩
    ∃ r, Rule.ofSpec Grammar.bundled "test.say" spec = .ok r ∧ r.previous = none ∧
      (r.compile Grammar.bundled alternates).isCompiled = true ∧
      r.pattern.Describes alternates
        [['s', 'a', 'y'], ['s', 'o'], [], ['3'], ['t', 'i', 'm', 'e', 's']] ∧
      ((r.compile Grammar.bundled alternates).match? "say so  3 times".toList none).isSome =
        true := by
  intro alternates spec
  obtain ⟨r, hspec, hpattern, hprevious, hcompiled⟩ :
      ∃ r, Rule.ofSpec Grammar.bundled "test.say" spec = .ok r ∧
        r.pattern = [.optional [.word ['p', 'l', 'e', 'a', 's', 'e']], .word ['s', 'a', 'y'],
          .anyWords, .choice [[.word ['n', 'o', 'w']], [.reference "later"]]] ∧
        r.previous = none ∧ (r.compile Grammar.bundled alternates).isCompiled = true :=
    ⟨_, by cbv, rfl, rfl, by decide +kernel⟩
  have hfragment : Pattern.parse "_ times" =
      .ok [.anyWord, .word ['t', 'i', 'm', 'e', 's']] := by cbv
  have hlater : Pattern.Describes alternates [.reference "later"]
      [['3'], ['t', 'i', 'm', 'e', 's']] :=
    .reference rfl hfragment (.anyWord (by simp) (.word .nil)) .nil
  have hdescribes : r.pattern.Describes alternates
      [['s', 'a', 'y'], ['s', 'o'], [], ['3'], ['t', 'i', 'm', 'e', 's']] := by
    rw [hpattern]
    have hrest : Pattern.Describes alternates
        [.anyWords, .choice [[.word ['n', 'o', 'w']], [.reference "later"]]]
        ([['s', 'o'], []] ++ ([['3'], ['t', 'i', 'm', 'e', 's']] ++ [])) :=
      .anyWords (by simp) (by simp) (.choice (by simp) hlater .nil)
    exact .skip (.word hrest)
  refine ⟨r, hspec, hprevious, hcompiled, hdescribes, ?_⟩
  exact (match?_isSome_iff_describes hspec hprevious hcompiled (by decide)).mpr hdescribes

end Rule

end Rejoinder
