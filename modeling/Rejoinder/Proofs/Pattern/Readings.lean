import Mathlib
import Rejoinder.Proofs.Pattern.Pieces

/-!
# Readings of a message

A pattern can often be read into the tokens of a message in several ways. A `Reader` lists the ways
to read a part of a pattern at the beginning of some tokens, in the order in which they are
preferred: an optional part is rather taken than left out, `*` rather takes fewer tokens than more,
and an earlier branch is preferred to a later one. A choice that is made further to the left counts
more, so the readings of a sequence are those of its first element, each of them continued in turn.

Wildcards, choices and references are numbered in the order in which they open; what stands inside
the alternate of a reference has no numbers. A reading remembers the tokens of every numbered part
that takes part in it.

A part can be read up to some tokens exactly if it describes the tokens before them
(`readsTo_sequence_iff`).
-/

set_option autoImplicit false

namespace Rejoinder

/-- A way to read the beginning of some tokens: the tokens that are left, and the tokens of each
numbered part that takes part, by its number. -/
structure Reading where
  left : List Text
  groups : List (Nat × List Text)

/-- The ways to read the beginning of some tokens, the preferred one first. -/
abbrev Reader := List Text → List Reading

/-- One reading behind another. -/
def Reading.followed (d e : Reading) : Reading := ⟨e.left, e.groups ++ d.groups⟩

namespace Reader

/-- A word is read if it is the next token. -/
def word (letters : Text) : Reader
  | [] => []
  | w :: ws => if w = letters then [⟨ws, []⟩] else []

/-- Any token is read but the empty one. -/
def anyWord : Reader
  | [] => []
  | w :: ws => if w = [] then [] else [⟨ws, []⟩]

/-- What can be left behind one or more tokens, the most first. -/
def ends : List Text → List (List Text)
  | [] => []
  | _ :: ws => ws :: ends ws

/-- One or more tokens are read, the fewest first; the empty one is not read alone. -/
def anyWords : Reader
  | [] => []
  | w :: ws => (if w = [] then ends ws else ws :: ends ws).map (⟨·, []⟩)

/-- The part is read or, if that leads nowhere, left out. -/
def optional (r : Reader) : Reader := fun ws => r ws ++ [⟨ws, []⟩]

/-- What is read is remembered under a number where parts are numbered. -/
def remembered (captured : Bool) (number : Nat) (r : Reader) : Reader := fun ws =>
  if captured then
    (r ws).map fun d => ⟨d.left, (number, ws.take (ws.length - d.left.length)) :: d.groups⟩
  else r ws

/-- One part is read behind another. -/
def behind (r r' : Reader) : Reader := fun ws =>
  (r ws).flatMap fun d => (r' d.left).map d.followed

end Reader

namespace ResolvedPattern

mutual

/-- How an element is read whose numbered parts have numbers from `next` on. -/
def readElement (captured : Bool) (next : Nat) : ResolvedElement → Reader
  | .word letters => .word letters
  | .anyWords => .remembered captured next .anyWords
  | .anyWord => .remembered captured next .anyWord
  | .choice branches =>
    .remembered captured next (readBranches captured (nextGroup captured next) branches)
  | .fragment _ body => .remembered captured next (readSequence false next body)
  | .optional body => .optional (readSequence captured next body)
termination_by structural e => e

/-- How the elements of a sequence are read, one behind the other. -/
def readSequence (captured : Bool) (next : Nat) : List ResolvedElement → Reader
  | [] => fun ws => [⟨ws, []⟩]
  | e :: es =>
    .behind (readElement captured next e) (readSequence captured (next + groupCount captured e) es)
termination_by structural es => es

/-- How one of some branches is read, an earlier one rather than a later one. -/
def readBranches (captured : Bool) (next : Nat) : List (List ResolvedElement) → Reader
  | [] => fun _ => []
  | b :: bs => fun ws =>
    readSequence captured next b ws ++
      readBranches captured (next + sequenceCount captured b) bs ws
termination_by structural bs => bs

end

/-- The readings of a whole message, the preferred one first. -/
def readings (p : ResolvedPattern) (ws : List Text) : List Reading :=
  (readSequence true 0 p ws).filter fun d => d.left.isEmpty

end ResolvedPattern

/-! ## Readings and what a pattern describes -/

namespace Reader

/-- The reader can read up to these tokens. -/
def ReadsTo (r : Reader) (ws left : List Text) : Prop := ∃ d ∈ r ws, d.left = left

/-- Remembering a part does not change how far it reads. -/
theorem readsTo_remembered {captured : Bool} {number : Nat} {r : Reader} {ws left : List Text} :
    (remembered captured number r).ReadsTo ws left ↔ r.ReadsTo ws left := by
  cases captured <;> simp [remembered, ReadsTo]

/-- A part behind another one reads on from where the first one has come. -/
theorem readsTo_behind {r r' : Reader} {ws left : List Text} :
    (behind r r').ReadsTo ws left ↔ ∃ middle, r.ReadsTo ws middle ∧ r'.ReadsTo middle left := by
  simp only [ReadsTo, behind, List.mem_flatMap, List.mem_map, Reading.followed]
  grind

/-- A literal word reads itself. -/
theorem readsTo_word {letters : Text} {ws left : List Text} :
    (word letters).ReadsTo ws left ↔ ws = letters :: left := by
  cases ws with
  | nil => simp [ReadsTo, word]
  | cons w ws =>
    rw [ReadsTo, word]
    split <;> simp_all

/-- The wildcard for one word reads a token that is not empty. -/
theorem readsTo_anyWord {ws left : List Text} :
    anyWord.ReadsTo ws left ↔ ∃ w, w ≠ [] ∧ ws = w :: left := by
  cases ws with
  | nil => simp [ReadsTo, anyWord]
  | cons w ws =>
    rw [ReadsTo, anyWord]
    split <;> simp_all

/-- What is left behind one or more tokens is a proper end of them. -/
theorem mem_ends_iff {ws left : List Text} :
    left ∈ ends ws ↔ ∃ taken, taken ≠ [] ∧ ws = taken ++ left := by
  induction ws with
  | nil => simp [ends]
  | cons w ws ih =>
    rw [ends, List.mem_cons, ih]
    constructor
    · rintro (rfl | ⟨taken, _, rfl⟩)
      · exact ⟨[w], by simp, rfl⟩
      · exact ⟨w :: taken, by simp, rfl⟩
    · rintro ⟨taken, hne, hsplit⟩
      obtain ⟨v, taken, rfl⟩ := List.exists_cons_of_ne_nil hne
      obtain ⟨rfl, rfl⟩ := List.cons.inj hsplit
      by_cases htaken : taken = []
      · exact Or.inl (by rw [htaken]; rfl)
      · exact Or.inr ⟨taken, htaken, rfl⟩

/-- The wildcard for words reads one or more tokens, but not the empty token alone. -/
theorem readsTo_anyWords {ws left : List Text} :
    anyWords.ReadsTo ws left ↔ ∃ taken, (taken ≠ [] ∧ taken ≠ [[]]) ∧ ws = taken ++ left := by
  cases ws with
  | nil => simp [ReadsTo, anyWords]
  | cons w ws =>
    have hmem : anyWords.ReadsTo (w :: ws) left ↔
        (w ≠ [] ∧ left = ws) ∨ left ∈ ends ws := by
      rw [ReadsTo, anyWords]
      split <;> simp_all [eq_comm]
    rw [hmem, mem_ends_iff]
    constructor
    · rintro (⟨hw, rfl⟩ | ⟨taken, hne, rfl⟩)
      · exact ⟨[w], by simpa using hw, rfl⟩
      · exact ⟨w :: taken, by simpa using fun _ => hne, rfl⟩
    · rintro ⟨taken, ⟨hne, hnot⟩, hsplit⟩
      obtain ⟨v, taken, rfl⟩ := List.exists_cons_of_ne_nil hne
      obtain ⟨rfl, rfl⟩ := List.cons.inj hsplit
      by_cases htaken : taken = []
      · subst htaken
        exact Or.inl ⟨by simpa using hnot, rfl⟩
      · exact Or.inr ⟨taken, htaken, rfl⟩

end Reader

namespace ResolvedPattern

open Reader

mutual

/-- An element can be read up to some tokens exactly if it describes those before them. -/
theorem readsTo_element_iff (captured : Bool) (next : Nat) (e : ResolvedElement)
    {ws left : List Text} : (readElement captured next e).ReadsTo ws left ↔
      ∃ taken, e.Describes taken ∧ ws = taken ++ left := by
  cases e with
  | word letters =>
    rw [readElement, readsTo_word]
    simp [ResolvedElement.Describes]
  | anyWords => exact readsTo_remembered.trans readsTo_anyWords
  | anyWord =>
    rw [readElement, readsTo_remembered, readsTo_anyWord]
    simp [ResolvedElement.Describes]
  | choice branches => exact readsTo_remembered.trans (readsTo_branches_iff captured _ branches)
  | fragment name body => exact readsTo_remembered.trans (readsTo_sequence_iff false next body)
  | optional body =>
    have hoption : (readElement captured next (.optional body)).ReadsTo ws left ↔
        left = ws ∨ (readSequence captured next body).ReadsTo ws left := by
      simp only [readElement, ReadsTo, Reader.optional, List.mem_append, List.mem_singleton]
      grind
    rw [hoption, readsTo_sequence_iff captured next body]
    simp only [ResolvedElement.Describes]
    grind

/-- A sequence can be read up to some tokens exactly if it describes those before them. -/
theorem readsTo_sequence_iff (captured : Bool) (next : Nat) (es : List ResolvedElement)
    {ws left : List Text} : (readSequence captured next es).ReadsTo ws left ↔
      ∃ taken, sequenceDescribes es taken ∧ ws = taken ++ left := by
  cases es with
  | nil => simp [readSequence, ReadsTo, sequenceDescribes]
  | cons e es =>
    rw [readSequence, readsTo_behind]
    simp only [readsTo_element_iff captured next e, readsTo_sequence_iff captured _ es,
      sequenceDescribes]
    grind

/-- Branches read what one of them describes. -/
theorem readsTo_branches_iff (captured : Bool) (next : Nat) (bs : List (List ResolvedElement))
    {ws left : List Text} : (readBranches captured next bs).ReadsTo ws left ↔
      ∃ taken, branchesDescribe bs taken ∧ ws = taken ++ left := by
  cases bs with
  | nil => simp [readBranches, ReadsTo, branchesDescribe]
  | cons b bs =>
    have hturn : (readBranches captured next (b :: bs)).ReadsTo ws left ↔
        (readSequence captured next b).ReadsTo ws left ∨
          (readBranches captured (next + sequenceCount captured b) bs).ReadsTo ws left := by
      simp only [ReadsTo, readBranches, List.mem_append]
      grind
    rw [hturn, readsTo_sequence_iff captured next b, readsTo_branches_iff captured _ bs]
    simp only [branchesDescribe]
    grind

end

end ResolvedPattern

end Rejoinder
