import Mathlib
import Rejoinder.Proofs.Pattern.Expansion
import Rejoinder.Proofs.Pattern.Groups
import Rejoinder.Proofs.Topic.Build

/-!
# The expression of a pattern is the one that is meant

The text that a pattern is rendered as is put together from strings, and what it means is decided by
the reader of regular expressions. Read back, it is the tree of the pattern, whose groups are
numbered without a gap: there is one group for each wildcard, choice and reference of the pattern
itself, in the order in which they open (`bundled_render_reads`).

So the text can always be read, and only the two limits of the compiler can stand against it: that
an expression must not be nested too deeply, and that its automata must not be too large
(`compile_anchored`). Both limits can be met. A reference to a long word, repeated often enough, is
nested in two levels only, but each letter of it takes a state, so the expression is too large
(`compileMatcher_repeatedReference`).
-/

set_option autoImplicit false

namespace Rejoinder

/-! ## The numbered groups of a pattern -/

mutual

/-- How many wildcards, choices and references an element contains. What a reference stands for does
not count. -/
def Element.numbered : Element → Nat
  | .word _ => 0
  | .anyWords => 1
  | .anyWord => 1
  | .choice branches => 1 + branchesNumbered branches
  | .optional body => elementsNumbered body
  | .reference _ => 1
termination_by structural e => e

/-- How many wildcards, choices and references a pattern contains. -/
def elementsNumbered : List Element → Nat
  | [] => 0
  | e :: es => e.numbered + elementsNumbered es
termination_by structural es => es

/-- How many wildcards, choices and references the branches of a choice contain. -/
def branchesNumbered : List (List Element) → Nat
  | [] => 0
  | b :: bs => elementsNumbered b + branchesNumbered bs
termination_by structural bs => bs

end

namespace Pattern

open ResolvedPattern

section Numbered

variable {expand : String → Except PatternError ResolvedPattern}

mutual

/-- Replacing references does not change how many numbered groups there are. -/
theorem groupCount_of_replaceElement (e : Element) {r : ResolvedElement}
    (h : replaceElement expand e = .ok r) : groupCount true r = e.numbered := by
  cases e with
  | word letters =>
    obtain rfl := Except.ok.inj h
    rfl
  | anyWords =>
    obtain rfl := Except.ok.inj h
    rfl
  | anyWord =>
    obtain rfl := Except.ok.inj h
    rfl
  | choice bs =>
    obtain ⟨rs, hrs, rfl⟩ := replaceElement_choice_eq_ok_iff.mp h
    rw [groupCount, branchesCount_of_replaceBranches bs hrs]
    rfl
  | optional body =>
    obtain ⟨rs, hrs, rfl⟩ := replaceElement_optional_eq_ok_iff.mp h
    exact sequenceCount_of_replaceElements body hrs
  | reference name =>
    obtain ⟨body, _, rfl⟩ := replaceElement_reference_eq_ok_iff.mp h
    rfl
termination_by structural e

/-- A resolved sequence has as many numbered groups as the pattern has wildcards, choices and
references. -/
theorem sequenceCount_of_replaceElements (p : List Element) {q : List ResolvedElement}
    (h : replaceElements expand p = .ok q) : sequenceCount true q = elementsNumbered p := by
  cases p with
  | nil =>
    obtain rfl := Except.ok.inj h
    rfl
  | cons e es =>
    obtain ⟨r, rs, hr, hrs, rfl⟩ := replaceElements_cons_eq_ok_iff.mp h
    rw [sequenceCount, groupCount_of_replaceElement e hr, sequenceCount_of_replaceElements es hrs,
      elementsNumbered]
termination_by structural p

/-- Resolved branches have as many numbered groups as there are wildcards, choices and references in
them. -/
theorem branchesCount_of_replaceBranches (bs : List (List Element))
    {rs : List (List ResolvedElement)} (h : replaceBranches expand bs = .ok rs) :
    branchesCount true rs = branchesNumbered bs := by
  cases bs with
  | nil =>
    obtain rfl := Except.ok.inj h
    rfl
  | cons b bs =>
    obtain ⟨r, rs', hr, hrs, rfl⟩ := replaceBranches_cons_eq_ok_iff.mp h
    rw [branchesCount, sequenceCount_of_replaceElements b hr,
      branchesCount_of_replaceBranches bs hrs, branchesNumbered]
termination_by structural bs

end

end Numbered

/-- A pattern that is not rendered has a reference at fault, and no reference is refused for a
regular expression. -/
theorem resolve_ne_invalidRegex {alternates : Alternates} {p : Pattern} {error : PatternError}
    (h : p.resolve alternates = .error error) : ∀ cause, error ≠ .invalidRegex cause := by
  have hrender : p.render alternates = .error error := by rw [render, h]; rfl
  obtain ⟨_, _, _, _, hoffends, _⟩ := firstOffence_of_render_eq_error hrender
  rintro cause rfl
  cases hoffends

end Pattern

namespace ResolvedPattern

open Regex

/-- The names of the groups of a tree, which has as many as there are numbers. -/
theorem treeNames_anchoredTree (q : ResolvedPattern) :
    Tree.groupNames q.anchoredTree = numberedNames 0 (sequenceCount true q) :=
  groupNames_anchoredTree q

/-- The names of groups with different numbers are different. -/
theorem nodup_numberedNames (next count : Nat) : (numberedNames next count).Nodup :=
  (List.nodup_range' ..).map fun _ _ h => groupName_injective h

/-- The expression of a pattern can be read, so that only the two limits count. -/
theorem compile_anchored {q : ResolvedPattern} (hq : q.WellFormed) :
    Regex.compile (Grammar.anchored q.body) =
      if nestingLimit < q.anchoredTree.depth then .error .tooDeep
      else if (Regex.ofTree q.anchoredTree).fits then .ok (Regex.ofTree q.anchoredTree)
      else .error .tooLarge := by
  rw [Regex.compile, ofText?_anchored hq]
  rfl

/-- A limit of the compiler stands against the expression of a pattern. -/
inductive Exceeds (q : ResolvedPattern) : Regex.Error → Prop
  | nesting (h : nestingLimit < q.anchoredTree.depth) : Exceeds q .tooDeep
  | size (hdepth : q.anchoredTree.depth ≤ nestingLimit) (direction : Direction)
    (h : sizeLimit < (Regex.ofTree q.anchoredTree).size direction) : Exceeds q .tooLarge

/-- The expression of a well-formed pattern is refused exactly where it exceeds a limit of the
compiler. -/
theorem compile_anchored_eq_error_iff {q : ResolvedPattern} (hq : q.WellFormed)
    {error : Regex.Error} :
    Regex.compile (Grammar.anchored q.body) = .error error ↔ q.Exceeds error := by
  rw [compile_anchored hq]
  constructor
  · intro h
    split at h
    · rename_i hdepth
      obtain rfl := Except.error.inj h
      exact .nesting hdepth
    · rename_i hdepth
      split at h
      · contradiction
      · rename_i hfits
        obtain rfl := Except.error.inj h
        rw [fits, Bool.and_eq_true, decide_eq_true_eq, decide_eq_true_eq,
          Decidable.not_and_iff_or_not] at hfits
        rcases hfits with hforward | hbackward
        · exact .size (Nat.le_of_not_lt hdepth) .forward (Nat.lt_of_not_le hforward)
        · exact .size (Nat.le_of_not_lt hdepth) .backward (Nat.lt_of_not_le hbackward)
  · intro h
    cases h with
    | nesting h => rw [if_pos h]
    | size hdepth direction h =>
      have hfits : (Regex.ofTree q.anchoredTree).fits = false := by
        cases direction <;> simp [fits, Nat.not_le_of_lt h]
      rw [if_neg (Nat.not_lt_of_le hdepth), if_neg (by simp [hfits])]

end ResolvedPattern

namespace Grammar

variable {alternates : Alternates} {p : Pattern}

/-- A pattern has no regular expression of its own only if it exceeds a limit. -/
theorem bundled_compile_eq_invalidRegex_iff (hp : p.WellFormed) {error : Regex.Error} :
    bundled.compile alternates p = .error (.invalidRegex error) ↔
      ∃ q, p.resolve alternates = .ok q ∧ q.Exceeds error := by
  cases hq : p.resolve alternates with
  | error cause =>
    have hrender : bundled.render alternates p = .error cause := by
      show (p.resolve alternates).map ResolvedPattern.body = _
      rw [hq]
      rfl
    rw [compile, hrender, error_bind]
    simp [Pattern.resolve_ne_invalidRegex hq error]
  | ok q =>
    have hrender : bundled.render alternates p = .ok q.body := by
      show (p.resolve alternates).map ResolvedPattern.body = _
      rw [hq]
      rfl
    have herror : Regex.compile (anchored q.body) = .error error ↔ q.Exceeds error :=
      ResolvedPattern.compile_anchored_eq_error_iff (Pattern.wellFormed_of_resolve hp hq)
    rw [compile, hrender, ok_bind]
    simp only [Except.ok.injEq, exists_eq_left', ← herror]
    cases Regex.compile (anchored q.body) <;> simp [Except.mapError]

end Grammar

/-! ## How large an expression is -/

namespace Regex

mutual

/-- How many letters of literals a step contains, those in choices apart: there letters may share a
state. -/
def stepLetters : Step → Nat
  | .literal text => text.length
  | .option body _ => stepsLetters body
  | .capture _ body => stepsLetters body
  | _ => 0
termination_by structural s => s

/-- How many letters of literals a sequence contains, those in choices apart. -/
def stepsLetters : List Step → Nat
  | [] => 0
  | s :: ss => stepLetters s + stepsLetters ss
termination_by structural ss => ss

end

/-- A text has no more characters than bytes. -/
theorem length_le_utf8Size (text : Text) : text.length ≤ Text.utf8Size text := by
  induction text with
  | nil => exact Nat.le_refl _
  | cons c text ih =>
    have hc := Char.utf8Size_pos c
    rw [List.length_cons, Text.utf8Size]
    omega

section Letters

variable (direction : Direction) (sizeOf : CharSet → Nat)

mutual

/-- The automaton has a state for every letter at least. -/
theorem stepLetters_le (s : Step) :
    stateSize * stepLetters s ≤ stepSize direction sizeOf s := by
  cases s with
  | literal text =>
    simp only [stepLetters, stepSize, literalSize]
    exact Nat.mul_le_mul_left _ (length_le_utf8Size text)
  | option body lazy =>
    have hbody := stepsLetters_le body
    simp only [stepLetters, stepSize]
    omega
  | capture name body =>
    have hbody := stepsLetters_le body
    cases direction <;> simp only [stepLetters, stepSize] <;> omega
  | _ => exact Nat.zero_le _
termination_by structural s

/-- Every letter of a sequence takes up a state of the automaton. -/
theorem stepsLetters_le (ss : List Step) :
    stateSize * stepsLetters ss ≤ sequenceSize direction sizeOf ss := by
  cases ss with
  | nil => exact Nat.zero_le _
  | cons s ss =>
    have hfirst := stepLetters_le s
    have hrest := stepsLetters_le ss
    rw [stepsLetters, Nat.mul_add]
    cases ss with
    | nil => exact hfirst
    | cons t ss => exact Nat.add_le_add hfirst hrest
termination_by structural ss

end

end Letters

/-- Every letter of an expression takes up a state of its automaton. -/
theorem stepsLetters_le_size (direction : Direction) (r : Regex) :
    stateSize * stepsLetters r.steps ≤ r.size direction := by
  cases direction <;> exact Nat.le_add_right_of_le (stepsLetters_le _ _ r.steps)

/-- Joining two sequences keeps the number of letters. -/
theorem stepsLetters_join (as bs : List Step) :
    stepsLetters (join as bs) = stepsLetters as + stepsLetters bs := by
  fun_induction join as bs with
  | case1 => simp [stepsLetters]
  | case2 s t ts => simp [stepsLetters, stepLetters, Nat.add_assoc]
  | case3 bs s ss _ ih => rw [stepsLetters, ih, stepsLetters, Nat.add_assoc]

/-- The letters of two lists of pieces are counted one after the other. -/
theorem stepsLetters_piecesSteps_append (ps qs : List Piece) :
    stepsLetters (piecesSteps (ps ++ qs)) =
      stepsLetters (piecesSteps ps) + stepsLetters (piecesSteps qs) := by
  induction ps with
  | nil => simp [piecesSteps, stepsLetters]
  | cons p ps ih =>
    rw [List.cons_append, piecesSteps, stepsLetters_join, ih, piecesSteps, stepsLetters_join,
      Nat.add_assoc]

end Regex

/-! ## A word that is repeated too often -/

namespace ResolvedPattern

open Regex

/-- The pieces of some letters have these letters. -/
theorem stepsLetters_letterPieces (letters : Text) :
    stepsLetters (piecesSteps (letterPieces letters)) = letters.length := by
  induction letters with
  | nil => rfl
  | cons c letters ih =>
    show stepsLetters (join [.literal [c]] (piecesSteps (letterPieces letters))) = _
    rw [stepsLetters_join, ih, List.length_cons, Nat.add_comm]
    rfl

/-- The pattern of an alternate that is one word, some times. -/
def repeated (name : String) (letters : Text) (count : Nat) : ResolvedPattern :=
  List.replicate count (.fragment name [.word letters])

/-- One more repetition is one more group of letters in front. -/
theorem sequencePieces_repeated_succ (name : String) (letters : Text) (count next : Nat)
    (started : Bool) :
    sequencePieces true next started (repeated name letters (count + 1)) =
      separatorPieces started ++
        [.group (.captured (some (numberedName next))) [letterPieces letters]] ++
        sequencePieces true (next + 1) true (repeated name letters count) := by
  rw [repeated, List.replicate_succ, sequencePieces, elementPieces]
  simp [sequencePieces, elementPieces, separatorPieces, groupKind, isRequired, groupCount,
    nextGroup, repeated]

/-- A word that is repeated has its letters every time. -/
theorem le_stepsLetters_repeated (name : String) (letters : Text) (count next : Nat)
    (started : Bool) :
    count * letters.length ≤ stepsLetters (piecesSteps
      (sequencePieces true next started (repeated name letters count))) := by
  induction count generalizing next started with
  | zero => simp
  | succ count ih =>
    have hrest := ih (next + 1) true
    have hgroup : stepsLetters (piecesSteps
        [.group (.captured (some (numberedName next))) [letterPieces letters]]) =
          letters.length := stepsLetters_letterPieces letters
    rw [sequencePieces_repeated_succ, stepsLetters_piecesSteps_append,
      stepsLetters_piecesSteps_append, hgroup, Nat.succ_mul]
    omega

/-- A sequence counts as one level at most. -/
theorem sequenceLevel_le (ps : List Piece) : Tree.sequenceLevel ps ≤ 1 := by
  unfold Tree.sequenceLevel
  split <;> omega

/-- A choice of one branch counts as no level. -/
theorem choiceLevel_singleton (b : List Piece) : Tree.choiceLevel [b] = 0 := rfl

/-- The depth of two lists of pieces is that of the deeper one. -/
theorem piecesDepth_append (ps qs : List Piece) :
    Tree.piecesDepth (ps ++ qs) = max (Tree.piecesDepth ps) (Tree.piecesDepth qs) := by
  induction ps with
  | nil => simp [Tree.piecesDepth]
  | cons p ps ih => rw [List.cons_append, Tree.piecesDepth, ih, Tree.piecesDepth, Nat.max_assoc]

/-- Letters are not nested. -/
theorem piecesDepth_letterPieces (letters : Text) :
    Tree.piecesDepth (letterPieces letters) = 0 := by
  induction letters with
  | nil => rfl
  | cons c letters ih => exact (Nat.zero_max _).trans ih

/-- However often a word is repeated, the expression is hardly nested. -/
theorem piecesDepth_repeated (name : String) (letters : Text) (count next : Nat)
    (started : Bool) :
    Tree.piecesDepth (sequencePieces true next started (repeated name letters count)) ≤ 2 := by
  induction count generalizing next started with
  | zero => exact Nat.zero_le _
  | succ count ih =>
    -- The groups stand side by side, so only the deepest one of them counts.
    have hrest := ih (next + 1) true
    have hseparator : Tree.piecesDepth (separatorPieces started) = 0 := by cases started <;> rfl
    have hgroup : Tree.piecesDepth
        [.group (.captured (some (numberedName next))) [letterPieces letters]] ≤ 2 := by
      have hlevel := sequenceLevel_le (letterPieces letters)
      simp only [Tree.piecesDepth, Tree.pieceDepth, Tree.branchesDepth, choiceLevel_singleton,
        piecesDepth_letterPieces]
      omega
    rw [sequencePieces_repeated_succ, piecesDepth_append, piecesDepth_append, hseparator]
    omega

/-- Repeating a word does not nest anything, so the depth stays within the limit. -/
theorem depth_repeated_le (name : String) (letters : Text) (count : Nat) :
    (repeated name letters count).anchoredTree.depth ≤ nestingLimit := by
  have hpieces := piecesDepth_repeated name letters count 0 false
  have hinner := sequenceLevel_le (sequencePieces true 0 false (repeated name letters count))
  have houter := sequenceLevel_le [.start,
    .group .plain [sequencePieces true 0 false (repeated name letters count)], .stop]
  simp only [anchoredTree, Tree.depth, Tree.branchesDepth, Tree.piecesDepth, Tree.pieceDepth,
    choiceLevel_singleton, nestingLimit]
  omega

/-- An expression that is hardly nested can still be too large. -/
theorem exceeds_repeated {name : String} {letters : Text} {count : Nat}
    (h : sizeLimit < stateSize * (count * letters.length)) :
    (repeated name letters count).Exceeds .tooLarge := by
  refine .size (depth_repeated_le ..) .forward (Nat.lt_of_lt_of_le h ?_)
  refine Nat.le_trans (Nat.mul_le_mul_left _ ?_) (stepsLetters_le_size _ _)
  rw [ofTree_anchoredTree_steps, stepsLetters, stepsLetters_join]
  have hletters := le_stepsLetters_repeated name letters count 0 false
  omega

end ResolvedPattern

/-- A word, kept as an alternate under a name. -/
def wordAlternate (name : String) (letters : Text) : Alternates :=
  ⟨[(name, Grammar.bundled.format [.word letters])], by simp⟩

/-- A pattern of as many references to one name. -/
def repeatedReference (name : String) (count : Nat) : Pattern :=
  List.replicate count (.reference name)

section Repeated

variable {name : String} {letters : Text}

/-- References to a proper name make up a well-formed pattern. -/
theorem wellFormed_repeatedReference (hname : Token.isName name.toList = true) {count : Nat}
    (hcount : 0 < count) : (repeatedReference name count).WellFormed := by
  have helements : ∀ n, elementsWellFormed (List.replicate n (.reference name)) := by
    intro n
    induction n with
    | zero => trivial
    | succ n ih => exact ⟨hname, ih⟩
  refine ⟨⟨.reference name, ?_, rfl⟩, helements count⟩
  exact List.mem_replicate.mpr ⟨Nat.ne_of_gt hcount, rfl⟩

/-- Every reference to a word becomes the word. -/
theorem resolve_repeatedReference (hletters : Token.IsWord letters) (count : Nat) :
    (repeatedReference name count).resolve (wordAlternate name letters) =
      .ok (ResolvedPattern.repeated name letters count) := by
  have hword : Pattern.WellFormed [.word letters] :=
    ⟨⟨_, List.mem_singleton_self _, rfl⟩, hletters, trivial⟩
  have hparse : Pattern.parse (Grammar.bundled.format [.word letters]) = .ok [.word letters] :=
    mapError_eq_ok_iff.mp (parse_format hword)
  have hget : (wordAlternate name letters).get? name =
      some (Grammar.bundled.format [.word letters]) := by
    simp [wordAlternate, Table.get?, Table.find?]
  have hexpand : Pattern.expandReference (wordAlternate name letters) 2 [] name =
      .ok [.word letters] := by
    rw [Pattern.expandReference, Pattern.fragment?, hget]
    simp only [List.not_mem_nil, if_false, hparse]
    rfl
  show Pattern.replaceElements (Pattern.expandReference (wordAlternate name letters) 2 []) _ = _
  induction count with
  | zero => rfl
  | succ count ih =>
    refine Pattern.replaceElements_cons_eq_ok_iff.mpr ⟨_, _, ?_, ih, rfl⟩
    exact Pattern.replaceElement_reference_eq_ok_iff.mpr ⟨_, hexpand, rfl⟩

end Repeated

namespace Rule

/-- Only the limits stand against the two patterns of a rule. -/
theorem exceeds_of_compileMatcher {name : String} {spec : RuleSpec} {r : Rule}
    (hspec : ofSpec Grammar.bundled name spec = .ok r) {alternates : Alternates}
    {error : Regex.Error}
    (h : r.compileMatcher Grammar.bundled alternates = .error (.invalidRegex error)) :
    ∃ p q, (r.pattern = p ∨ r.previous = some p) ∧ p.resolve alternates = .ok q ∧
      q.Exceeds error := by
  obtain ⟨hpattern, _, hprevious, _⟩ := of_ofSpec hspec
  obtain ⟨p, hp, herror⟩ := exists_of_compileMatcher_eq_error h
  have hwell : p.WellFormed := by
    rcases hp with rfl | hp
    · exact hpattern
    · exact hprevious p hp
  obtain ⟨q, hq, hexceeds⟩ := (Grammar.bundled_compile_eq_invalidRegex_iff hwell).mp herror
  exact ⟨p, q, hp, hq, hexceeds⟩

/-- The rule for a word of its alternate, eight hundred times. -/
def repeatedWordSpec : RuleSpec :=
  ⟨"rule", Grammar.bundled.format (repeatedReference "a" 800), "", 0, ⟨.shared "rule", []⟩⟩

/-- A thousand letters. -/
def longWord : Text := List.replicate 1000 'a'

/-- A thousand letters are a word. -/
theorem isWord_longWord : Token.IsWord longWord := by
  refine ⟨List.cons_ne_nil 'a' (List.replicate 999 'a'), ?_⟩
  intro c hc
  rw [List.eq_of_mem_replicate hc]
  decide +kernel

/-- The rule for the repeated word is accepted, with the pattern that its text says. -/
theorem exists_ofSpec_repeatedWordSpec :
    ∃ r, ofSpec Grammar.bundled "test.rule" repeatedWordSpec = .ok r ∧
      r.pattern = repeatedReference "a" 800 ∧ r.previous = none := by
  have hparse : Grammar.bundled.parse repeatedWordSpec.pattern = .ok (repeatedReference "a" 800) :=
    parse_format (wellFormed_repeatedReference (by decide) (by omega))
  rw [ofSpec, hparse]
  exact ⟨_, rfl, rfl, rfl⟩

/-- With a long word, the expression of the rule is too large. -/
theorem compileMatcher_repeatedReference {r : Rule} (h : r.pattern = repeatedReference "a" 800) :
    r.compileMatcher Grammar.bundled (wordAlternate "a" longWord) =
      .error (.invalidRegex .tooLarge) := by
  have hcompile : Grammar.bundled.compile (wordAlternate "a" longWord) (repeatedReference "a" 800) =
      .error (.invalidRegex .tooLarge) := by
    refine (Grammar.bundled_compile_eq_invalidRegex_iff
      (wellFormed_repeatedReference (by decide) (by omega))).mpr
      ⟨_, resolve_repeatedReference isWord_longWord 800, ResolvedPattern.exceeds_repeated ?_⟩
    rw [longWord, List.length_replicate]
    decide
  rw [compileMatcher, h, hcompile]
  rfl

/-- A rendered pattern is the expression that is meant. Between its anchors it is read as the tree
of the pattern, whose groups are numbered from zero in the order in which they open, one for each
wildcard, choice and reference of the pattern itself. So an expression of a rule is refused only if
it is nested too deeply or too large. -/
theorem bundled_render_reads :
    (∀ source p alternates body, Grammar.bundled.parse source = .ok p →
      Grammar.bundled.render alternates p = .ok body →
      ∃ q, p.resolve alternates = .ok q ∧ body = q.body ∧
        Regex.Tree.ofText? (Grammar.anchored body) = .ok q.anchoredTree ∧
        Regex.Tree.groupNames q.anchoredTree =
          (List.range (elementsNumbered p)).map ResolvedPattern.numberedName ∧
        (Regex.Tree.groupNames q.anchoredTree).Nodup) ∧
    (∀ name spec r alternates error, ofSpec Grammar.bundled name spec = .ok r →
      r.compileMatcher Grammar.bundled alternates = .error (.invalidRegex error) →
      ∃ p q, (r.pattern = p ∨ r.previous = some p) ∧ p.resolve alternates = .ok q ∧
        q.Exceeds error) := by
  constructor
  · intro source p alternates body hparse hrender
    have hp := Pattern.wellFormed_of_parse hparse
    obtain ⟨q, hq, hbody⟩ := map_eq_ok_iff.mp hrender
    have hnames : Regex.Tree.groupNames q.anchoredTree =
        ResolvedPattern.numberedNames 0 (elementsNumbered p) := by
      rw [q.treeNames_anchoredTree, Pattern.sequenceCount_of_replaceElements p hq]
    refine ⟨q, hq, hbody.symm, ?_, ?_, ?_⟩
    · rw [← hbody]
      exact ResolvedPattern.ofText?_anchored (Pattern.wellFormed_of_resolve hp hq)
    · rw [hnames, ResolvedPattern.numberedNames, List.range_eq_range']
    · rw [hnames]
      exact ResolvedPattern.nodup_numberedNames _ _
  · intro name spec r alternates error hspec h
    exact exceeds_of_compileMatcher hspec h

/-- A choice inside an optional part, and a reference to a choice, whose own group has no name; and
a rule that is too large. -/
theorem bundled_render_reads_colors :
    let alternates : Alternates := ⟨[("colors", "(red|green)")], by simp⟩
    (∃ p body q, Grammar.bundled.parse "[(very|so) much] %a:colors *" = .ok p ∧
      Grammar.bundled.render alternates p = .ok body ∧ p.resolve alternates = .ok q ∧
      Regex.Tree.ofText? (Grammar.anchored body) = .ok q.anchoredTree ∧
      Regex.Tree.groupNames q.anchoredTree = ["match0", "match1", "match2"]) ∧
    (∃ r p q, ofSpec Grammar.bundled "test.rule" repeatedWordSpec = .ok r ∧
      r.compileMatcher Grammar.bundled (wordAlternate "a" longWord) =
        .error (.invalidRegex .tooLarge) ∧
      (r.pattern = p ∨ r.previous = some p) ∧
      p.resolve (wordAlternate "a" longWord) = .ok q ∧ q.Exceeds .tooLarge) := by
  intro alternates
  constructor
  · obtain ⟨p, body, hparse, hrender, hnumbered⟩ : ∃ p body,
        Grammar.bundled.parse "[(very|so) much] %a:colors *" = .ok p ∧
        Grammar.bundled.render alternates p = .ok body ∧ elementsNumbered p = 3 :=
      ⟨_, _, by cbv, by cbv, rfl⟩
    obtain ⟨q, hq, _, hread, hnames, _⟩ := bundled_render_reads.1 _ _ _ _ hparse hrender
    rw [hnumbered] at hnames
    exact ⟨p, body, q, hparse, hrender, hq, hread, hnames.trans (by cbv)⟩
  · obtain ⟨r, hspec, hpattern, _⟩ := exists_ofSpec_repeatedWordSpec
    have herror := compileMatcher_repeatedReference hpattern
    obtain ⟨p, q, hp, hq, hexceeds⟩ := bundled_render_reads.2 _ _ _ _ _ hspec herror
    exact ⟨r, p, q, hspec, herror, hp, hq, hexceeds⟩

/-- The expression of a rule can be far from the limit on nesting and still not compile. -/
theorem invalidRegex_of_depth_le_nestingLimit :
    ∃ r q, ofSpec Grammar.bundled "test.rule" repeatedWordSpec = .ok r ∧ r.previous = none ∧
      r.pattern.resolve (wordAlternate "a" longWord) = .ok q ∧
      q.anchoredTree.depth ≤ Regex.nestingLimit ∧
      r.compileMatcher Grammar.bundled (wordAlternate "a" longWord) =
        .error (.invalidRegex .tooLarge) := by
  obtain ⟨r, hspec, hpattern, hprevious⟩ := exists_ofSpec_repeatedWordSpec
  refine ⟨r, _, hspec, hprevious, ?_, ResolvedPattern.depth_repeated_le "a" longWord 800,
    compileMatcher_repeatedReference hpattern⟩
  rw [hpattern]
  exact resolve_repeatedReference isWord_longWord 800

end Rule

end Rejoinder
