import Mathlib
import Rejoinder.Proofs.Pattern.Meaning
import Rejoinder.Proofs.Regex.Groups

/-!
# Numbered groups

The groups of the expression for a pattern are named by the numbers from zero on
(`groupNames_anchoredTree`). An expression that is not too large has fewer groups than a machine
word has values (`sequenceCount_lt_of_fits`), so every name is read back as its number and the
groups of a match are looked up by number (`get?_groupsOf`).
-/

set_option autoImplicit false

namespace Rejoinder

open Regex

namespace ResolvedPattern

/-! ## Names -/

/-- The names in two lists of pieces stand one after the other. -/
theorem sequenceNames_append (ps qs : List Piece) :
    Tree.sequenceNames (ps ++ qs) = Tree.sequenceNames ps ++ Tree.sequenceNames qs := by
  induction ps with
  | nil => rfl
  | cons p ps ih =>
    rw [List.cons_append, Tree.sequenceNames, ih, Tree.sequenceNames, List.append_assoc]

/-- Letters have no names. -/
theorem sequenceNames_letterPieces (letters : Text) :
    Tree.sequenceNames (letterPieces letters) = [] := by
  induction letters with
  | nil => rfl
  | cons c letters ih => exact ih

/-- Separators have no names. -/
theorem sequenceNames_separated (started : Bool) (ps : List Piece) :
    Tree.sequenceNames (separatorPieces started ++ ps) = Tree.sequenceNames ps := by
  cases started <;> rfl

/-- An option has the names of the sequence in it. -/
theorem sequenceNames_option (started : Bool) (ps : List Piece) :
    Tree.sequenceNames [.option (.group .plain
      [if started then .one (.exactly ' ') :: ps else ps ++ [.one (.exactly ' ')]]) false] =
        Tree.sequenceNames ps := by
  have hinner (qs : List Piece) :
      Tree.sequenceNames [.option (.group .plain [qs]) false] = Tree.sequenceNames qs := by
    simp [Tree.sequenceNames, Tree.pieceNames, Tree.branchesNames, GroupKind.name?]
  rw [hinner]
  cases started
  · rw [if_neg (by simp), sequenceNames_append]
    exact List.append_nil _
  · rfl

/-- The names of the groups with some numbers. -/
def numberedNames (next count : Nat) : List String := (List.range' next count).map numberedName

/-- The numbers go on where those before them end. -/
theorem numberedNames_append (next m n : Nat) :
    numberedNames next m ++ numberedNames (next + m) n = numberedNames next (m + n) := by
  rw [numberedNames, numberedNames, ← List.map_append, List.range'_append_1, numberedNames]

/-- A group has its own name, if it is captured, before those of its branches. -/
theorem sequenceNames_group (captured : Bool) (next : Nat) (bs : List (List Piece)) :
    Tree.sequenceNames [.group (groupKind captured next) bs] =
      numberedNames next (nextGroup captured 0) ++ Tree.branchesNames bs := by
  cases captured <;>
    simp [Tree.sequenceNames, Tree.pieceNames, groupKind, GroupKind.name?, numberedNames, nextGroup]

mutual

/-- The groups of an element are named in the order in which they open. -/
theorem sequenceNames_elementPieces (captured : Bool) (next : Nat) (started : Bool)
    (e : ResolvedElement) :
    Tree.sequenceNames (elementPieces captured next started e) =
      numberedNames next (groupCount captured e) := by
  cases e with
  | word letters =>
    rw [elementPieces, sequenceNames_separated]
    exact sequenceNames_letterPieces letters
  | anyWords =>
    rw [elementPieces, sequenceNames_separated, sequenceNames_group]
    exact List.append_nil _
  | anyWord =>
    rw [elementPieces, sequenceNames_separated, sequenceNames_group]
    exact List.append_nil _
  | choice branches =>
    rw [elementPieces, sequenceNames_separated, sequenceNames_group, branchesNames_branchesPieces,
      nextGroup_eq captured next, numberedNames_append, groupCount]
  | fragment name body =>
    have hbody := sequenceNames_sequencePieces false next false body
    rw [sequenceCount_false body] at hbody
    rw [elementPieces, sequenceNames_separated, sequenceNames_group, Tree.branchesNames, hbody]
    exact List.append_nil _
  | optional body =>
    have hbody := sequenceNames_sequencePieces captured next false body
    simp only [elementPieces]
    rw [sequenceNames_option, hbody, groupCount]

/-- The names in the pieces of a sequence are numbered from the next number on. -/
theorem sequenceNames_sequencePieces (captured : Bool) (next : Nat) (started : Bool)
    (es : List ResolvedElement) :
    Tree.sequenceNames (sequencePieces captured next started es) =
      numberedNames next (sequenceCount captured es) := by
  cases es with
  | nil => rfl
  | cons e es =>
    rw [sequencePieces, sequenceNames_append, sequenceNames_elementPieces captured next started e,
      sequenceNames_sequencePieces captured _ _ es, numberedNames_append, sequenceCount]

/-- The names in the pieces of some branches are numbered from the next number on. -/
theorem branchesNames_branchesPieces (captured : Bool) (next : Nat)
    (bs : List (List ResolvedElement)) :
    Tree.branchesNames (branchesPieces captured next bs) =
      numberedNames next (branchesCount captured bs) := by
  cases bs with
  | nil => rfl
  | cons b bs =>
    rw [branchesPieces, Tree.branchesNames, sequenceNames_sequencePieces captured next false b,
      branchesNames_branchesPieces captured _ bs, numberedNames_append, branchesCount]

end

/-- The groups of the whole expression are named by the numbers from zero on. -/
theorem groupNames_anchoredTree (p : ResolvedPattern) :
    (Regex.ofTree p.anchoredTree).groupNames = numberedNames 0 (sequenceCount true p) := by
  show Tree.sequenceNames [.start, .group .plain [sequencePieces true 0 false p], .stop] ++ [] = _
  rw [← sequenceNames_sequencePieces true 0 false p]
  simp [Tree.sequenceNames, Tree.pieceNames, Tree.branchesNames, GroupKind.name?]

/-- A pattern with an expression that is not too large has fewer groups than a machine word has
values. -/
theorem sequenceCount_lt_of_fits {p : ResolvedPattern}
    (h : (Regex.ofTree p.anchoredTree).fits = true) : sequenceCount true p < Text.wordLimit := by
  have hlength := length_groupNames_lt_of_fits h
  rwa [groupNames_anchoredTree, numberedNames, List.length_map, List.length_range'] at hlength

/-! ## Looking groups up -/

/-- The name of a group is read back as its number. -/
theorem groupNumber?_numberedName {i : Nat} (h : i < Text.wordLimit) :
    Rule.groupNumber? (numberedName i) = some i := by
  have hdigits : ∀ c ∈ Text.ofNumber i, c.isDigit = true := fun c hc => isDigit_of_mem_ofNumber hc
  have hne : Text.ofNumber i ≠ [] := Nat.toDigits_ne_nil
  have hvalue : Text.digitsValue? (Text.ofNumber i) = some i := by
    have hread : Nat.ofDigitChars 10 (Text.ofNumber i) 0 = i := Nat.ofDigitChars_ten_toDigits
    rw [Text.digitsValue?, if_neg (by simpa [hne] using hdigits), hread, if_pos h]
  have hname : (numberedName i).toList = ['m', 'a', 't', 'c', 'h'] ++ Text.ofNumber i :=
    String.toList_ofList
  rw [Rule.groupNumber?, hname]
  show Text.number? (Text.ofNumber i) = some i
  obtain ⟨c, digits, hcons⟩ := List.exists_cons_of_ne_nil hne
  rw [hcons] at hdigits hvalue ⊢
  have hplus : c ≠ '+' := by
    rintro rfl
    exact absurd (hdigits '+' List.mem_cons_self) (by decide)
  unfold Text.number?
  split
  · rename_i hsign
    exact absurd (List.cons.inj hsign).1 hplus
  · exact hvalue

end ResolvedPattern

open ResolvedPattern

/-- What is found among some groups after one more has been put in. -/
theorem Groups.get?_insert (groups : Groups) (number : Nat) (text : String) (i : Nat) :
    (groups.insert number text).get? i = if i = number then some text else groups.get? i := by
  induction groups with
  | nil =>
    unfold get?
    rw [insert, List.lookup_cons]
    grind
  | cons g groups ih =>
    obtain ⟨n, t⟩ := g
    unfold get? at ih ⊢
    rw [insert]
    split
    · rw [List.lookup_cons]
      grind
    · split
      · rename_i hsame
        subst hsame
        rw [List.lookup_cons, List.lookup_cons]
        grind
      · rw [List.lookup_cons, ih, List.lookup_cons]
        grind

namespace Rule

/-- The groups with the text of one more name, if it is a number and took part in the match. -/
def addGroup (marks : List Mark) (groups : Groups) (name : String) : Groups :=
  match groupNumber? name, captured? marks name with
  | some number, some text => groups.insert number (String.ofList text)
  | _, _ => groups

/-- A group whose name has a number is put in under that number, if it has captured something. -/
theorem get?_addGroup {number : Nat} (h : number < Text.wordLimit) (marks : List Mark)
    (groups : Groups) (i : Nat) :
    (addGroup marks groups (numberedName number)).get? i =
      if i = number then
        ((captured? marks (numberedName number)).map String.ofList).or (groups.get? i)
      else groups.get? i := by
  rw [addGroup, groupNumber?_numberedName h]
  cases captured? marks (numberedName number) with
  | none => simp
  | some text => exact Groups.get?_insert groups number _ i

/-- Groups with numbered names are put in under their numbers, as far as they have captured
something. -/
theorem get?_foldl_addGroup (marks : List Mark) (next count : Nat)
    (hcount : next + count ≤ Text.wordLimit) (groups : Groups) (i : Nat) :
    ((numberedNames next count).foldl (addGroup marks) groups).get? i =
      if next ≤ i ∧ i < next + count then
        ((captured? marks (numberedName i)).map String.ofList).or (groups.get? i)
      else groups.get? i := by
  induction count generalizing next groups with
  | zero =>
    rw [if_neg (by omega)]
    rfl
  | succ count ih =>
    have hnames : numberedNames next (count + 1) =
        numberedName next :: numberedNames (next + 1) count := rfl
    rw [hnames, List.foldl_cons, ih (next + 1) (by omega),
      get?_addGroup (by omega : next < Text.wordLimit)]
    by_cases hi : i = next
    · subst hi
      rw [if_neg (by omega), if_pos rfl, if_pos (by omega)]
    · rw [if_neg hi]
      by_cases hrange : next + 1 ≤ i ∧ i < next + 1 + count
      · rw [if_pos hrange, if_pos (by omega)]
      · rw [if_neg hrange, if_neg (by omega)]

/-- The groups of a match are the texts of the numbered names. -/
theorem get?_groupsOf {count : Nat} (hcount : count ≤ Text.wordLimit) (marks : List Mark)
    (i : Nat) :
    (groupsOf (numberedNames 0 count) marks).get? i =
      if i < count then (captured? marks (numberedName i)).map String.ofList else none := by
  have hfold := get?_foldl_addGroup marks 0 count (by omega) [] i
  have hnone : Groups.get? [] i = none := rfl
  rw [hnone, Option.or_none, Nat.zero_add] at hfold
  simp only [Nat.zero_le, true_and] at hfold
  exact hfold

end Rule

end Rejoinder
