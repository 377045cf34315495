import Mathlib
import Rejoinder.Proofs.Pattern.Language
import Rejoinder.Proofs.Pattern.RoundTrip
import Rejoinder.Regex.Compile

/-!
# Reading what has been rendered

The pieces of the regular expression that a pattern is rendered as are given here by recursion on
the pattern (`elementPieces`), without a text in between. The reader finds these pieces in the
rendered text (`readsAs_renderSequence`): a word is pushed letter by letter, and what a group or an
option encloses is read in a frame of its own, which is closed by the bracket that the renderer has
put there. The names of groups are numbered in the order of rendering, so none is taken when it is
read (`NamesBelow`).
-/

set_option autoImplicit false

namespace Rejoinder

open Regex

namespace ResolvedPattern

/-- The name of the group with a number, as the reader keeps it. -/
def numberedName (number : Nat) : String := String.ofList (groupName number)

/-- The kind of group that is opened with a number. -/
def groupKind (captured : Bool) (next : Nat) : GroupKind :=
  if captured then .captured (some (numberedName next)) else .plain

/-- The pieces that separate a required element from those before it. -/
def separatorPieces (started : Bool) : List Piece :=
  if started then [.one (.exactly ' ')] else []

/-- The pieces of literal characters. -/
def letterPieces (letters : Text) : List Piece := letters.map fun c => .one (.exactly c)

mutual

/-- How many numbers the groups of an element take. -/
def groupCount (captured : Bool) : ResolvedElement → Nat
  | .word _ => 0
  | .anyWords => nextGroup captured 0
  | .anyWord => nextGroup captured 0
  | .choice branches => nextGroup captured 0 + branchesCount captured branches
  | .fragment _ _ => nextGroup captured 0
  | .optional body => sequenceCount captured body
termination_by structural e => e

/-- How many numbers the groups of a sequence take. -/
def sequenceCount (captured : Bool) : List ResolvedElement → Nat
  | [] => 0
  | e :: es => groupCount captured e + sequenceCount captured es
termination_by structural es => es

/-- How many numbers the groups of some branches take. -/
def branchesCount (captured : Bool) : List (List ResolvedElement) → Nat
  | [] => 0
  | b :: bs => sequenceCount captured b + branchesCount captured bs
termination_by structural bs => bs

end

mutual

/-- The pieces of an element together with its separator. -/
def elementPieces (captured : Bool) (next : Nat) (started : Bool) : ResolvedElement → List Piece
  | .word letters => separatorPieces started ++ letterPieces letters
  | .anyWords =>
    separatorPieces started ++ [.group (groupKind captured next) [[.many .notLineFeed true]]]
  | .anyWord =>
    separatorPieces started ++ [.group (groupKind captured next) [[.many .notSpace false]]]
  | .choice branches =>
    separatorPieces started ++
      [.group (groupKind captured next)
        (branchesPieces captured (nextGroup captured next) branches)]
  | .fragment _ body =>
    separatorPieces started ++
      [.group (groupKind captured next) [sequencePieces false next false body]]
  | .optional body =>
    let inner := sequencePieces captured next false body
    [.option (.group .plain
      [if started then .one (.exactly ' ') :: inner else inner ++ [.one (.exactly ' ')]]) false]
termination_by structural e => e

/-- The pieces of the rest of a sequence. -/
def sequencePieces (captured : Bool) (next : Nat) (started : Bool) :
    List ResolvedElement → List Piece
  | [] => []
  | e :: es =>
    elementPieces captured next started e ++
      sequencePieces captured (next + groupCount captured e) (started || isRequired e) es
termination_by structural es => es

/-- The pieces of the branches of a choice. -/
def branchesPieces (captured : Bool) (next : Nat) : List (List ResolvedElement) → List (List Piece)
  | [] => []
  | b :: bs =>
    sequencePieces captured next false b ::
      branchesPieces captured (next + sequenceCount captured b) bs
termination_by structural bs => bs

end

/-- The next number does not depend on where counting began. -/
theorem nextGroup_eq (captured : Bool) (next : Nat) :
    nextGroup captured next = next + nextGroup captured 0 := by
  cases captured <;> simp [nextGroup]

mutual

/-- The renderer counts as many groups as there are. -/
theorem renderElement_snd (captured : Bool) (next : Nat) (started : Bool) (e : ResolvedElement) :
    (renderElement captured next started e).2 = next + groupCount captured e := by
  cases e with
  | word letters => rfl
  | anyWords => exact nextGroup_eq captured next
  | anyWord => exact nextGroup_eq captured next
  | choice branches =>
    have hbranches := renderBranches_snd captured (nextGroup captured next) branches
    simp only [renderElement, groupCount, hbranches]
    rw [nextGroup_eq captured next, Nat.add_assoc]
  | fragment name body => exact nextGroup_eq captured next
  | optional body =>
    have hbody := renderSequence_snd captured next false body
    simp only [renderElement, groupCount]
    split <;> exact hbody

/-- The renderer counts as many groups of a sequence as there are. -/
theorem renderSequence_snd (captured : Bool) (next : Nat) (started : Bool)
    (es : List ResolvedElement) :
    (renderSequence captured next started es).2 = next + sequenceCount captured es := by
  cases es with
  | nil => rfl
  | cons e es =>
    simp only [renderSequence, sequenceCount]
    rw [renderSequence_snd captured _ _ es, renderElement_snd captured next started e,
      Nat.add_assoc]

/-- The renderer counts as many groups of some branches as there are. -/
theorem renderBranches_snd (captured : Bool) (next : Nat) (bs : List (List ResolvedElement)) :
    (renderBranches captured next bs).2 = next + branchesCount captured bs := by
  cases bs with
  | nil => rfl
  | cons b bs =>
    simp only [renderBranches, branchesCount]
    rw [renderBranches_snd captured _ bs, renderSequence_snd captured next false b, Nat.add_assoc]

end

mutual

/-- No group inside a fragment takes a number. -/
theorem groupCount_false (e : ResolvedElement) : groupCount false e = 0 := by
  cases e with
  | word letters => rfl
  | anyWords => rfl
  | anyWord => rfl
  | choice branches =>
    simp only [groupCount, branchesCount_false branches]
    rfl
  | fragment name body => rfl
  | optional body => exact sequenceCount_false body

/-- Inside a fragment a sequence takes no numbers. -/
theorem sequenceCount_false (es : List ResolvedElement) : sequenceCount false es = 0 := by
  cases es with
  | nil => rfl
  | cons e es => rw [sequenceCount, groupCount_false e, sequenceCount_false es]

/-- Inside a fragment branches take no numbers. -/
theorem branchesCount_false (bs : List (List ResolvedElement)) : branchesCount false bs = 0 := by
  cases bs with
  | nil => rfl
  | cons b bs => rw [branchesCount, sequenceCount_false b, branchesCount_false bs]

end

/-! ## Names of groups -/

/-- Groups with the same name have the same number. -/
theorem groupName_injective {m n : Nat} (h : numberedName m = numberedName n) : m = n := by
  have hdigits : Nat.toDigits 10 m = Nat.toDigits 10 n := by
    have hname := String.ofList_injective h
    simpa [groupName, Text.ofNumber] using hname
  rw [← Nat.ofDigitChars_ten_toDigits (n := m), hdigits, Nat.ofDigitChars_ten_toDigits]

/-- A number is written with digits. -/
theorem isDigit_of_mem_ofNumber {c : Char} {n : Nat} (h : c ∈ Text.ofNumber n) :
    c.isDigit = true :=
  Nat.isDigit_of_mem_toDigits (by decide) (by decide) h

/-- ASCII digits are numbers of Unicode. -/
theorem isAlphanumeric_of_isDigit {c : Char} (h : c.isDigit = true) :
    Text.isAlphanumeric c = true := by
  simp only [Char.isDigit, Bool.and_eq_true, decide_eq_true_eq] at h
  change 48 ≤ c.toNat ∧ c.toNat ≤ 57 at h
  have hall : (Text.members [(48, 57)]).all (Text.inRanges Text.alphanumericRanges) = true := by
    decide +kernel
  refine List.all_eq_true.mp hall c.toNat ?_
  exact List.mem_flatMap.mpr ⟨(48, 57), by simp, List.mem_range'_1.mpr ⟨h.1, by omega⟩⟩

/-- The names of numbered groups are names of groups. -/
theorem isGroupName_groupName (n : Nat) : isGroupName (groupName n) = true := by
  have hfirst : Text.isAlphabetic 'm' = true := by decide +kernel
  have hletters : ['a', 't', 'c', 'h'].all Text.isAlphanumeric = true := by decide +kernel
  have hrest : ∀ c ∈ ['a', 't', 'c', 'h'] ++ Text.ofNumber n, Text.isAlphanumeric c = true := by
    intro c hc
    rcases List.mem_append.mp hc with hc | hc
    · exact List.all_eq_true.mp hletters c hc
    · exact isAlphanumeric_of_isDigit (isDigit_of_mem_ofNumber hc)
  show ((Text.isAlphabetic 'm' || 'm' == '_') && (['a', 't', 'c', 'h'] ++ Text.ofNumber n).all
    fun c => Text.isAlphanumeric c || c == '_' || c == '.' || c == '[' || c == ']') = true
  rw [hfirst, Bool.true_or, Bool.true_and, List.all_eq_true]
  intro c hc
  rw [hrest c hc]
  rfl

/-- The name of a numbered group does not end early. -/
theorem ne_of_mem_groupName {c : Char} {n : Nat} (h : c ∈ groupName n) : c ≠ '>' := by
  rintro rfl
  rcases List.mem_append.mp h with h | h
  · simp at h
  · exact absurd (isDigit_of_mem_ofNumber h) (by decide)

/-- All names that are taken have numbers below the next one. -/
def NamesBelow (next : Nat) (names : List String) : Prop :=
  ∀ name ∈ names, ∃ number < next, name = numberedName number

/-- The next number makes a name that is not taken. -/
theorem NamesBelow.not_mem {next : Nat} {names : List String} (h : NamesBelow next names) :
    numberedName next ∉ names := by
  intro hmem
  obtain ⟨number, hlt, hname⟩ := h _ hmem
  exact absurd (groupName_injective hname) (by omega)

/-- When the next name is taken, all names that are taken have numbers below the one after it. -/
theorem NamesBelow.enter {captured : Bool} {next : Nat} {names : List String}
    (h : NamesBelow next names) :
    NamesBelow (nextGroup captured next) ((groupKind captured next).name?.toList ++ names) := by
  cases captured
  · exact h
  · intro name hname
    rcases List.mem_cons.mp hname with rfl | hname
    · exact ⟨next, Nat.lt_succ_self next, rfl⟩
    · obtain ⟨number, hlt, hname⟩ := h name hname
      exact ⟨number, Nat.lt_succ_of_lt hlt, hname⟩

/-! ## Reading single constructions -/

/-- Nothing has been begun that goes on, except that a repetition may become a lazy one. -/
def Ready (s : ReadState) : Prop := s.mode = .plain ∨ s.mode = .repeated

/-- The state after reading some characters. -/
def read (s : ReadState) (t : Text) : Except Regex.Error ReadState := t.foldlM ReadState.step s

/-- A text is read in two parts. -/
theorem read_append (s : ReadState) (t u : Text) :
    read s (t ++ u) = read s t >>= fun s' => read s' u :=
  List.foldlM_append ..

/-- What has been read leaves a state from which the rest is read. -/
theorem read_append_of_ok {s s' : ReadState} {t : Text} (h : read s t = .ok s') (u : Text) :
    read s (t ++ u) = read s' u := by
  rw [read_append, h]
  rfl

/-- A character that makes no repetition lazy is read as it is anywhere else. -/
theorem step_of_ready {s : ReadState} (h : Ready s) {c : Char} (hc : c ≠ '?') :
    s.step c = s.stepPlain c := by
  obtain ⟨mode, inner, outer, names⟩ := s
  rcases h with h | h
  · obtain rfl : mode = .plain := h
    rfl
  · obtain rfl : mode = .repeated := h
    exact if_neg hc

/-- A character that means nothing else stands for itself. -/
theorem stepPlain_letter {s : ReadState} {c : Char} (h : Token.isWordChar c = true ∨ c = ' ') :
    s.stepPlain c = .ok (s.push (.one (.exactly c))) := by
  have hne : c ∉ ['(', ')', '|', '?', '+', '[', '.', '^', '$', '*', '\x7b', '\\'] := by
    rcases h with h | rfl
    · exact Token.not_mem_of_isWordChar h (by decide +kernel)
    · decide
  simp only [List.mem_cons, List.not_mem_nil, or_false, not_or] at hne
  obtain ⟨h1, h2, h3, h4, h5, h6, h7, h8, h9, h10, h11, h12⟩ := hne
  simp only [ReadState.stepPlain, h1, h2, h3, h4, h5, h6, h7, h8, h9, h10, h11, h12, if_false,
    or_false]

/-- A letter is pushed as a piece of its own. -/
theorem step_letter {s : ReadState} (hs : Ready s) {c : Char}
    (h : Token.isWordChar c = true ∨ c = ' ') :
    s.step c = .ok (s.push (.one (.exactly c))) := by
  have hc : c ≠ '?' := by
    rintro rfl
    rcases h with h | h
    · exact Token.not_mem_reserved h (by decide)
    · exact absurd h (by decide)
  rw [step_of_ready hs hc, stepPlain_letter h]

/-- A text is read character by character. -/
theorem read_cons (s : ReadState) (c : Char) (t : Text) :
    read s (c :: t) = s.step c >>= fun s' => read s' t := by
  rw [read, List.foldlM_cons]
  rfl

/-- The name of a group is read to its end. -/
theorem read_name {s : ReadState} {letters : Text} (h : s.mode = .name letters) {t : Text}
    (ht : ∀ c ∈ t, c ≠ '>') :
    read s t = .ok ⟨.name (t.reverse ++ letters), s.inner, s.outer, s.names⟩ := by
  induction t generalizing s letters with
  | nil =>
    obtain ⟨mode, inner, outer, names⟩ := s
    obtain rfl : mode = .name letters := h
    rfl
  | cons c t ih =>
    obtain ⟨hc, ht⟩ := List.forall_mem_cons.mp ht
    have hstep : s.step c = .ok ⟨.name (c :: letters), s.inner, s.outer, s.names⟩ := by
      simp only [ReadState.step, h, if_neg hc]
    have hmode : (⟨.name (c :: letters), s.inner, s.outer, s.names⟩ : ReadState).mode =
        .name (c :: letters) := rfl
    rw [read_cons, hstep, ok_bind, ih hmode ht, List.reverse_cons,
      List.append_assoc]
    rfl

/-- The beginning of a group opens a new frame. -/
theorem read_openGroup {s : ReadState} (hs : Ready s) {captured : Bool} {next : Nat}
    (hnames : NamesBelow next s.names) :
    read s (openGroup captured next) = .ok (s.enter (groupKind captured next)) := by
  obtain ⟨mode, inner, outer, names⟩ := s
  cases captured with
  | false => rcases hs with h | h <;> (cases h; rfl)
  | true =>
    have hlead : read ⟨mode, inner, outer, names⟩ ['(', '?', 'P', '<'] =
        .ok ⟨.name [], inner, outer, names⟩ := by
      rcases hs with h | h <;> (cases h; rfl)
    show read _ (['(', '?', 'P', '<'] ++ groupName next ++ ['>']) = _
    rw [List.append_assoc, read_append_of_ok hlead,
      read_append_of_ok (read_name rfl fun c hc => ne_of_mem_groupName hc)]
    show (if (!isGroupName ((groupName next).reverse ++ []).reverse) = true then _
      else if String.ofList ((groupName next).reverse ++ []).reverse ∈ names then _ else _) >>= _
        = _
    have hnew : String.ofList (groupName next) ∉ names := hnames.not_mem
    rw [List.append_nil, List.reverse_reverse, isGroupName_groupName, if_neg (by simp),
      if_neg hnew]
    rfl

/-- The end of a group makes it a piece of the frame around it. -/
theorem read_closeGroup {s : ReadState} (hs : Ready s) {f : Frame} {outer : List Frame}
    (ho : s.outer = f :: outer) :
    read s [')'] =
      .ok ⟨.plain, f.push (.group s.inner.kind s.inner.finish), outer, s.names⟩ := by
  obtain ⟨mode, inner, outer', names⟩ := s
  obtain rfl : outer' = f :: outer := ho
  rcases hs with h | h <;> (cases h; rfl)

/-! ## Reading rendered patterns -/

/-- Wherever the names from `next` on are free, the text is read as these pieces, and the names from
`after` on are still free behind it. -/
def ReadsAs (t : Text) (pieces : List Piece) (next after : Nat) : Prop :=
  ∀ s, Ready s → NamesBelow next s.names → ∃ s', read s t = .ok s' ∧ Ready s' ∧
    s'.inner = ⟨s.inner.kind, s.inner.branches, pieces.reverse ++ s.inner.pieces⟩ ∧
    s'.outer = s.outer ∧ NamesBelow after s'.names

/-- At the beginning of a branch the text is read as these branches. -/
def ReadsBranches (t : Text) (branches : List (List Piece)) (next after : Nat) : Prop :=
  ∀ s, Ready s → NamesBelow next s.names → s.inner.pieces = [] → ∃ s', read s t = .ok s' ∧
    Ready s' ∧ s'.inner.kind = s.inner.kind ∧
    s'.inner.finish = s.inner.branches.reverse ++ branches ∧
    s'.outer = s.outer ∧ NamesBelow after s'.names

variable {t u : Text} {ps qs : List Piece} {next middle after : Nat}

/-- The empty text is read as no pieces. -/
theorem readsAs_nil (next : Nat) : ReadsAs [] [] next next := by
  intro s hs hnames
  exact ⟨s, rfl, hs, rfl, rfl, hnames⟩

/-- Two texts are read as the pieces of the first one and then those of the second one. -/
theorem ReadsAs.append (h : ReadsAs t ps next middle) (h' : ReadsAs u qs middle after) :
    ReadsAs (t ++ u) (ps ++ qs) next after := by
  intro s hs hnames
  obtain ⟨m, hread, hm, hinner, houter, hmnames⟩ := h s hs hnames
  obtain ⟨s', hread', hs', hinner', houter', hnames'⟩ := h' m hm hmnames
  refine ⟨s', by rw [read_append_of_ok hread, hread'], hs', ?_, houter'.trans houter, hnames'⟩
  rw [hinner', hinner]
  simp

/-- A letter or a space is read as itself. -/
theorem readsAs_letter {c : Char} (hc : Token.isWordChar c = true ∨ c = ' ') (next : Nat) :
    ReadsAs [c] [.one (.exactly c)] next next := by
  intro s hs hnames
  exact ⟨s.push (.one (.exactly c)), by rw [read_cons, step_letter hs hc]; rfl, Or.inl rfl, rfl,
    rfl, hnames⟩

/-- No character of a word means something in a regular expression. -/
theorem not_mem_special {c : Char} (h : Token.isWordChar c = true) : c ∉ special :=
  Token.not_mem_of_isWordChar h (by decide +kernel)

/-- A word is rendered as it is. -/
theorem escaped_eq_self {letters : Text} (h : ∀ c ∈ letters, Token.isWordChar c = true) :
    escaped letters = letters := by
  induction letters with
  | nil => rfl
  | cons c letters ih =>
    obtain ⟨hc, h⟩ := List.forall_mem_cons.mp h
    rw [escaped, List.flatMap_cons, if_neg (not_mem_special hc), ← escaped, ih h,
      List.singleton_append]

/-- A word is read letter by letter. -/
theorem readsAs_letters {letters : Text} (h : ∀ c ∈ letters, Token.isWordChar c = true)
    (next : Nat) : ReadsAs letters (letterPieces letters) next next := by
  induction letters with
  | nil => exact readsAs_nil next
  | cons c letters ih =>
    obtain ⟨hc, h⟩ := List.forall_mem_cons.mp h
    exact (readsAs_letter (Or.inl hc) next).append (ih h)

/-- A separator is read as a space, if it is there. -/
theorem readsAs_separator (started : Bool) (next : Nat) :
    ReadsAs (separator started) (separatorPieces started) next next := by
  cases started
  · exact readsAs_nil next
  · exact readsAs_letter (Or.inr rfl) next

/-- The body of the wildcard for words is read as a lazy repetition. -/
theorem readsAs_lazyAny (next : Nat) :
    ReadsAs ['.', '+', '?'] [.many .notLineFeed true] next next := by
  intro s hs hnames
  obtain ⟨mode, inner, outer, names⟩ := s
  refine ⟨ReadState.push (.many .notLineFeed true) ⟨mode, inner, outer, names⟩, ?_, Or.inl rfl, rfl,
    rfl, hnames⟩
  rcases hs with h | h <;> (cases h; rfl)

/-- The body of the wildcard for one word is read as a repetition of anything but spaces. -/
theorem readsAs_notSpaces (next : Nat) :
    ReadsAs ['[', '^', ' ', ']', '+'] [.many .notSpace false] next next := by
  intro s hs hnames
  obtain ⟨mode, inner, outer, names⟩ := s
  refine ⟨⟨.repeated, inner.push (.many .notSpace false), outer, names⟩, ?_, Or.inr rfl, rfl, rfl,
    hnames⟩
  rcases hs with h | h <;> (cases h; rfl)

/-- What is read as pieces is read as a single branch of them. -/
theorem ReadsAs.branches (h : ReadsAs t ps next after) : ReadsBranches t [ps] next after := by
  intro s hs hnames hpieces
  obtain ⟨s', hread, hs', hinner, houter, hnames'⟩ := h s hs hnames
  refine ⟨s', hread, hs', by rw [hinner], ?_, houter, hnames'⟩
  rw [hinner, hpieces]
  simp [Frame.finish, Frame.nextBranch]

/-- What is read as pieces in front of a bar becomes the first branch. -/
theorem ReadsAs.cons_branches {pss : List (List Piece)} (h : ReadsAs t ps next middle)
    (h' : ReadsBranches u pss middle after) :
    ReadsBranches (t ++ '|' :: u) (ps :: pss) next after := by
  intro s hs hnames hpieces
  obtain ⟨m, hread, hm, hinner, houter, hmnames⟩ := h s hs hnames
  have hbar : m.step '|' = .ok ⟨.plain, m.inner.nextBranch, m.outer, m.names⟩ := by
    rw [step_of_ready hm (by decide)]
    rfl
  obtain ⟨s', hread', hs', hkind, hfinish, houter', hnames'⟩ :=
    h' ⟨.plain, m.inner.nextBranch, m.outer, m.names⟩ (Or.inl rfl) hmnames rfl
  refine ⟨s', ?_, hs', ?_, ?_, houter'.trans houter, hnames'⟩
  · rw [read_append_of_ok hread, read_cons, hbar, ok_bind, hread']
  · rw [hkind]
    show m.inner.kind = _
    rw [hinner]
  · rw [hfinish, hinner, hpieces]
    simp [Frame.nextBranch]

/-- What is read as branches becomes a group when brackets are put around it. -/
theorem ReadsBranches.read_group {pss : List (List Piece)} (captured : Bool)
    (h : ReadsBranches t pss (nextGroup captured next) after) {s : ReadState} (hs : Ready s)
    (hnames : NamesBelow next s.names) :
    ∃ names, NamesBelow after names ∧ read s (openGroup captured next ++ t ++ [')']) =
      .ok ⟨.plain, s.inner.push (.group (groupKind captured next) pss), s.outer, names⟩ := by
  obtain ⟨s', hread, hs', hkind, hfinish, houter, hnames'⟩ :=
    h (s.enter (groupKind captured next)) (Or.inl rfl) hnames.enter rfl
  refine ⟨s'.names, hnames', ?_⟩
  rw [List.append_assoc, read_append_of_ok (read_openGroup hs hnames), read_append_of_ok hread,
    read_closeGroup hs' houter, hkind, hfinish]
  rfl

/-- What is read as branches is a group in brackets. -/
theorem ReadsBranches.group {pss : List (List Piece)} (captured : Bool)
    (h : ReadsBranches t pss (nextGroup captured next) after) :
    ReadsAs (openGroup captured next ++ t ++ [')']) [.group (groupKind captured next) pss] next
      after := by
  intro s hs hnames
  obtain ⟨names, hnames', hread⟩ := h.read_group captured hs hnames
  exact ⟨_, hread, Or.inl rfl, rfl, rfl, hnames'⟩

/-- A group becomes an option when a question mark follows it. -/
theorem ReadsBranches.option {pss : List (List Piece)} (h : ReadsBranches t pss next after) :
    ReadsAs (['(', '?', ':'] ++ t ++ [')', '?']) [.option (.group .plain pss) false] next
      after := by
  intro s hs hnames
  obtain ⟨names, hnames', hread⟩ := ReadsBranches.read_group false h hs hnames
  refine ⟨⟨.repeated, s.inner.push (.option (.group .plain pss) false), s.outer, names⟩, ?_,
    Or.inr rfl, rfl, rfl, hnames'⟩
  have hsplit : ['(', '?', ':'] ++ t ++ [')', '?'] =
      (openGroup false next ++ t ++ [')']) ++ ['?'] := by
    simp [openGroup]
  rw [hsplit, read_append_of_ok hread]
  rfl

/- Inside a fragment groups have no names, and the number that the renderer hands on does not count.
There `bound` is the number below which names are taken; elsewhere it is the next number. -/

/-- The kind of a group depends on the number only where it is captured. -/
theorem groupKind_of_bound {captured : Bool} {bound next : Nat}
    (h : captured = true → bound = next) : groupKind captured bound = groupKind captured next := by
  cases captured
  · rfl
  · rw [h rfl]

/-- The beginning of a group depends on the number only where it is captured. -/
theorem openGroup_of_bound {captured : Bool} {bound next : Nat}
    (h : captured = true → bound = next) : openGroup captured bound = openGroup captured next := by
  cases captured
  · rfl
  · rw [h rfl]

mutual

/-- A rendered element is read as its pieces. -/
theorem readsAs_renderElement (captured : Bool) (bound next : Nat) (started : Bool)
    (e : ResolvedElement) (he : e.WellFormed) (hbound : captured = true → bound = next) :
    ReadsAs (renderElement captured next started e).1 (elementPieces captured next started e) bound
      (bound + groupCount captured e) := by
  have hsep := readsAs_separator started bound
  have hopen := openGroup_of_bound hbound
  have hkind := groupKind_of_bound hbound
  cases e with
  | word letters =>
    have hletters : ReadsAs (escaped letters) (letterPieces letters) bound bound := by
      rw [escaped_eq_self he.2]
      exact readsAs_letters he.2 bound
    exact hsep.append hletters
  | anyWords =>
    have hgroup := (readsAs_lazyAny (nextGroup captured bound)).branches.group captured
    rw [nextGroup_eq captured bound, hopen, hkind] at hgroup
    simpa only [renderElement, elementPieces, groupCount, List.append_assoc, List.cons_append,
      List.nil_append] using hsep.append hgroup
  | anyWord =>
    have hgroup := (readsAs_notSpaces (nextGroup captured bound)).branches.group captured
    rw [nextGroup_eq captured bound, hopen, hkind] at hgroup
    simpa only [renderElement, elementPieces, groupCount, List.append_assoc, List.cons_append,
      List.nil_append] using hsep.append hgroup
  | choice branches =>
    have hnext : captured = true → nextGroup captured bound = nextGroup captured next := by
      intro h
      rw [hbound h]
    have hgroup := (readsBranches_renderBranches captured (nextGroup captured bound)
      (nextGroup captured next) branches he.1 he.2 hnext).group captured
    rw [nextGroup_eq captured bound, Nat.add_assoc, hopen, hkind] at hgroup
    simpa only [renderElement, elementPieces, groupCount, List.append_assoc] using
      hsep.append hgroup
  | fragment name body =>
    have hgroup := (readsAs_renderSequence false (nextGroup captured bound) next false body he.2
      (by simp)).branches.group captured
    have hcount : sequenceCount false body = 0 := sequenceCount_false body
    rw [hcount, Nat.add_zero, nextGroup_eq captured bound, hopen, hkind] at hgroup
    simpa only [renderElement, elementPieces, groupCount, List.append_assoc] using
      hsep.append hgroup
  | optional body =>
    have hbody := readsAs_renderSequence captured bound next false body he.2 hbound
    have hspace (n : Nat) : ReadsAs [' '] [.one (.exactly ' ')] n n := readsAs_letter (Or.inr rfl) n
    cases started
    · simpa [renderElement, elementPieces, groupCount] using
        (hbody.append (hspace _)).branches.option
    · simpa [renderElement, elementPieces, groupCount] using
        ((hspace bound).append hbody).branches.option

/-- The rest of a sequence is read as its pieces when it has been rendered. -/
theorem readsAs_renderSequence (captured : Bool) (bound next : Nat) (started : Bool)
    (es : List ResolvedElement) (hes : resolvedElementsWellFormed es)
    (hbound : captured = true → bound = next) :
    ReadsAs (renderSequence captured next started es).1 (sequencePieces captured next started es)
      bound (bound + sequenceCount captured es) := by
  cases es with
  | nil => exact readsAs_nil bound
  | cons e es =>
    have hmiddle : captured = true →
        bound + groupCount captured e = next + groupCount captured e := by
      intro h
      rw [hbound h]
    have hfirst := readsAs_renderElement captured bound next started e hes.1 hbound
    have hrest := readsAs_renderSequence captured (bound + groupCount captured e)
      (next + groupCount captured e) (started || isRequired e) es hes.2 hmiddle
    rw [← renderElement_snd captured next started e, Nat.add_assoc] at hrest
    simp only [renderSequence, sequencePieces, sequenceCount]
    rw [← renderElement_snd captured next started e]
    exact hfirst.append hrest

/-- Branches are read as their pieces when they have been rendered with bars between them. -/
theorem readsBranches_renderBranches (captured : Bool) (bound next : Nat)
    (bs : List (List ResolvedElement)) (hne : bs ≠ []) (hbs : resolvedBranchesWellFormed bs)
    (hbound : captured = true → bound = next) :
    ReadsBranches (Text.joinWith '|' (renderBranches captured next bs).1)
      (branchesPieces captured next bs) bound (bound + branchesCount captured bs) := by
  cases bs with
  | nil => exact absurd rfl hne
  | cons b bs =>
    have hfirst := readsAs_renderSequence captured bound next false b hbs.1.2 hbound
    cases bs with
    | nil =>
      simpa [renderBranches, branchesPieces, branchesCount, joinWith_singleton] using
        hfirst.branches
    | cons c bs =>
      have hmiddle : captured = true →
          bound + sequenceCount captured b = next + sequenceCount captured b := by
        intro h
        rw [hbound h]
      have hrest := readsBranches_renderBranches captured (bound + sequenceCount captured b)
        (next + sequenceCount captured b) (c :: bs) (by simp) hbs.2 hmiddle
      rw [← renderSequence_snd captured next false b, Nat.add_assoc] at hrest
      have hall := hfirst.cons_branches hrest
      simp only [renderBranches, joinWith_cons_cons, branchesCount] at hall ⊢
      simp only [branchesPieces, ← renderSequence_snd captured next false b] at hall ⊢
      exact hall

end

/-- The expression for a pattern, anchored at both ends, is read as the pieces of the pattern. -/
theorem ofText?_anchored {p : ResolvedPattern} (hp : p.WellFormed) :
    Tree.ofText? (Grammar.anchored p.body) =
      .ok [[.start, .group .plain [sequencePieces true 0 false p], .stop]] := by
  have hbranches := (readsAs_renderSequence true 0 0 false p hp.2 (fun _ => rfl)).branches
  have hready : Ready (ReadState.push .start .start) := Or.inl rfl
  have hnames : NamesBelow 0 (ReadState.push .start .start).names := by
    intro name hname
    simp [ReadState.push, ReadState.start] at hname
  obtain ⟨names, _, hread⟩ := ReadsBranches.read_group false hbranches hready hnames
  have hstart : read .start ['^'] = .ok (ReadState.push .start .start) := rfl
  have hsplit : Grammar.anchored p.body =
      ['^'] ++ ((openGroup false 0 ++ (renderSequence true 0 false p).1 ++ [')']) ++ ['$']) := by
    simp [Grammar.anchored, openGroup, body]
  show (read .start (Grammar.anchored p.body) >>= ReadState.finish) = _
  rw [hsplit, read_append_of_ok hstart, read_append_of_ok hread]
  rfl

end ResolvedPattern

end Rejoinder
