import Mathlib
import Rejoinder.Handler
import Rejoinder.Proofs.Beginnings
import Rejoinder.Proofs.Outcome

/-!
# Templates are filled in one pass

A slot of a template is one or more decimal digits between braces. A template is cut at its slots
from left to right, each one the leftmost of what is behind the one before (`Cut`), and this can be
done in one way only (`exists_cut`, `Cut.unique`). Filling a template leaves the texts between the
slots as they are, so braces that belong to no slot stay, and puts the text of a group in the place
of each slot without looking into it. If there is a slot that cannot be filled, the first one of
them is the error (`expand_in_one_pass`).
-/

set_option autoImplicit false

namespace Rejoinder

/-! ## Numbers -/

/-- Digits are read as a number: all of them are ASCII digits, and the number that they stand for
fits into one machine word. -/
structure Text.ReadAs (digits : Text) (number : Nat) : Prop where
  ascii : ∀ c ∈ digits, c.isDigit = true
  value : Nat.ofDigitChars 10 digits 0 = number
  fits : number < 2 ^ 64

/-- Decimal digits of all scripts are looked at, but only ASCII digits are read. -/
theorem Text.number?_eq_some_iff {digits : Text} (hne : digits ≠ [])
    (hdecimal : ∀ c ∈ digits, isDecimalDigit c = true) {number : Nat} :
    number? digits = some number ↔ ReadAs digits number := by
  obtain ⟨c, rest, rfl⟩ := List.exists_cons_of_ne_nil hne
  have hplus : c ≠ '+' := by
    rintro rfl
    exact absurd (hdecimal '+' List.mem_cons_self) (by decide)
  have hnumber : number? (c :: rest) = digitsValue? (c :: rest) := by
    unfold number?
    split
    · rename_i heq
      exact absurd (List.cons.inj heq).1 hplus
    · rfl
  have hlimit : wordLimit = 2 ^ 64 := by decide
  rw [hnumber, digitsValue?, hlimit]
  by_cases hascii : (c :: rest).all Char.isDigit = true
  · simp only [List.isEmpty_cons, hascii, Bool.not_true, Bool.or_self, Bool.false_eq_true, if_false]
    constructor
    · intro h
      split at h
      · rename_i hfits
        obtain rfl := Option.some.inj h
        exact ⟨List.all_eq_true.mp hascii, rfl, hfits⟩
      · contradiction
    · rintro ⟨_, rfl, hfits⟩
      rw [if_pos hfits]
  · simp only [List.isEmpty_cons, hascii, Bool.not_false, Bool.or_true, if_true]
    constructor
    · intro h
      contradiction
    · intro h
      exact absurd (List.all_eq_true.mpr h.ascii) hascii

namespace Template

/-! ## Slots -/

/-- A text begins with a slot. -/
structure Opens (digits behind t : Text) : Prop where
  nonempty : digits ≠ []
  decimal : ∀ c ∈ digits, Text.isDecimalDigit c = true
  eq : t = '{' :: (digits ++ '}' :: behind)

/-- A slot of a template: the text between the slot to its left and this one, and its digits. -/
structure Slot where
  before : Text
  digits : Text

/-- The slots of a template from left to right, none of them overlapping another one, and what is
left behind the last of them. -/
inductive Cut : Text → List Slot → Text → Prop
  | last {t : Text} (none : ∀ s, s <:+ t → ∀ digits behind, ¬ Opens digits behind s) : Cut t [] t
  | slot {t before s digits behind last : Text} {slots : List Slot} (split : t = before ++ s)
    (opens : Opens digits behind s)
    (first : ∀ s', s' <:+ t → s.length < s'.length → ∀ digits behind, ¬ Opens digits behind s')
    (rest : Cut behind slots last) : Cut t (⟨before, digits⟩ :: slots) last

/-- The texts between the slots with other texts in the places of the slots. -/
def assemble (last : Text) : List Slot → List String → Text
  | slot :: slots, text :: texts => slot.before ++ (text.toList ++ assemble last slots texts)
  | _, _ => last

/-- The digits of a slot are read as the number of a group that has this text. -/
def Fills (groups : Groups) (slot : Slot) (text : String) : Prop :=
  ∃ number, Text.ReadAs slot.digits number ∧ groups.get? number = some text

/-- What is wrong with a slot. -/
inductive Fault (groups : Groups) (slot : Slot) : HandlerError → Prop
  | badGroup (unread : ∀ number, ¬ Text.ReadAs slot.digits number) :
    Fault groups slot (.badGroup (String.ofList slot.digits))
  | missingGroup {number : Nat} (read : Text.ReadAs slot.digits number)
    (missing : groups.get? number = none) : Fault groups slot (.missingGroup number)

variable {digits digits' behind behind' before last last' t : Text} {slots slots' : List Slot}
  {slot : Slot} {groups : Groups}

section Opens

variable (h : Opens digits behind t)

include h

/-- The digits of a slot end before its closing brace. -/
theorem Opens.takeWhile_digits :
    (digits ++ '}' :: behind).takeWhile Text.isDecimalDigit = digits := by
  refine takeWhile_append_of_stop h.decimal fun c hc => ?_
  obtain rfl : c = '}' := by simpa [eq_comm] using hc
  decide

/-- Behind the digits of a slot comes its closing brace. -/
theorem Opens.dropWhile_digits :
    (digits ++ '}' :: behind).dropWhile Text.isDecimalDigit = '}' :: behind := by
  refine dropWhile_append_of_stop h.decimal fun c hc => ?_
  obtain rfl : c = '}' := by simpa [eq_comm] using hc
  decide

/-- A text begins with one slot at most. -/
theorem Opens.unique (h' : Opens digits' behind' t) : digits = digits' ∧ behind = behind' := by
  have heq : digits ++ '}' :: behind = digits' ++ '}' :: behind' :=
    List.tail_eq_of_cons_eq (h.eq.symm.trans h'.eq)
  refine ⟨?_, ?_⟩
  · rw [← h.takeWhile_digits, heq, h'.takeWhile_digits]
  · have hrest := h.dropWhile_digits
    rw [heq, h'.dropWhile_digits] at hrest
    exact (List.tail_eq_of_cons_eq hrest).symm

/-- What follows a slot is shorter than the text that begins with it. -/
theorem Opens.length_lt : behind.length < t.length := by
  rw [h.eq]
  simp
  omega

/-- A slot is a piece of its own. -/
theorem pieces_of_opens : pieces t = .group digits :: pieces behind := by
  rw [h.eq, pieces]
  split
  · rename_i rest hrest
    rw [h.dropWhile_digits] at hrest
    obtain rfl := List.tail_eq_of_cons_eq hrest
    rw [h.takeWhile_digits, if_neg (by simpa using h.nonempty)]
  · rename_i hother
    exact absurd h.dropWhile_digits (hother behind)

end Opens

/-- Where no slot begins, a character stands for itself. -/
theorem pieces_of_not_opens {c : Char} (h : ∀ digits behind, ¬ Opens digits behind (c :: t)) :
    pieces (c :: t) = .literal c :: pieces t := by
  rw [pieces.eq_def]
  split
  · contradiction
  · rename_i rest hrest
    obtain ⟨rfl, rfl⟩ := List.cons.inj hrest
    split
    · rename_i behind hbehind
      split
      · rfl
      · rename_i hne
        have hsplit : t = t.takeWhile Text.isDecimalDigit ++ '}' :: behind := by
          rw [← hbehind, List.takeWhile_append_dropWhile]
        refine absurd ⟨by simpa using hne, fun c hc => List.mem_takeWhile_imp hc, ?_⟩
          (h (t.takeWhile Text.isDecimalDigit) behind)
        rw [← hsplit]
    · rfl
  · rename_i hrest
    obtain ⟨rfl, rfl⟩ := List.cons.inj hrest
    rfl

/-- Characters stand for themselves as far as no slot begins. -/
theorem pieces_append (h : ∀ s, s <:+ before ++ t → t.length < s.length →
    ∀ digits behind, ¬ Opens digits behind s) :
    pieces (before ++ t) = before.map .literal ++ pieces t := by
  induction before with
  | nil => rfl
  | cons c before ih =>
    rw [List.cons_append, pieces_of_not_opens, ih, List.map_cons, List.cons_append]
    · exact fun s hs => h s (hs.trans (List.suffix_cons c _))
    · exact h _ List.suffix_rfl (by simp)

/-! ## Cutting a template -/

/-- A template that does not begin with a slot is cut where its rest is. -/
theorem exists_cut_cons {c : Char} (h : ∀ digits behind, ¬ Opens digits behind (c :: t))
    (hcut : Cut t slots last) : ∃ slots' last', Cut (c :: t) slots' last' := by
  cases hcut with
  | last hnone =>
    refine ⟨[], _, .last fun s hs => ?_⟩
    rcases List.suffix_cons_iff.mp hs with rfl | hs
    · exact h
    · exact hnone s hs
  | slot hsplit hopens hfirst hrest =>
    refine ⟨_, last, .slot (by rw [hsplit, ← List.cons_append]) hopens (fun s hs hlt => ?_) hrest⟩
    rcases List.suffix_cons_iff.mp hs with rfl | hs
    · exact h
    · exact hfirst s hs hlt

/-- Every template can be cut. -/
theorem exists_cut (t : Text) : ∃ slots last, Cut t slots last := by
  induction ht : t.length using Nat.strong_induction_on generalizing t with
  | _ length ih =>
    subst ht
    by_cases hopens : ∃ digits behind, Opens digits behind t
    · obtain ⟨digits, behind, hopens⟩ := hopens
      obtain ⟨slots, last, hcut⟩ := ih _ hopens.length_lt behind rfl
      refine ⟨_, last, .slot (List.nil_append t).symm hopens (fun s hs hlt => ?_) hcut⟩
      exact absurd hs.length_le (by omega)
    · push Not at hopens
      cases t with
      | nil =>
        refine ⟨[], [], .last fun s hs => ?_⟩
        rw [List.suffix_nil.mp hs]
        exact hopens
      | cons c t =>
        obtain ⟨slots, last, hcut⟩ := ih t.length (by simp) t rfl
        exact exists_cut_cons hopens hcut

/-- There is one way to cut a template. -/
theorem Cut.unique (h : Cut t slots last) (h' : Cut t slots' last') :
    slots = slots' ∧ last = last' := by
  induction h generalizing slots' with
  | last hnone =>
    cases h' with
    | last => exact ⟨rfl, rfl⟩
    | slot hsplit hopens => exact absurd hopens (hnone _ ⟨_, hsplit.symm⟩ _ _)
  | slot hsplit hopens hfirst _ ih =>
    cases h' with
    | last hnone => exact absurd hopens (hnone _ ⟨_, hsplit.symm⟩ _ _)
    | slot hsplit' hopens' hfirst' hrest' =>
      -- neither of the two slots is further left than the other
      have hle := not_lt.mp fun hlt => hfirst _ ⟨_, hsplit'.symm⟩ hlt _ _ hopens'
      have hge := not_lt.mp fun hlt => hfirst' _ ⟨_, hsplit.symm⟩ hlt _ _ hopens
      obtain ⟨rfl, rfl⟩ := List.append_inj' (hsplit.symm.trans hsplit') (le_antisymm hge hle)
      obtain ⟨rfl, rfl⟩ := hopens.unique hopens'
      obtain ⟨rfl, rfl⟩ := ih hrest'
      exact ⟨rfl, rfl⟩

/-- The pieces of a template are the characters between its slots, and the slots. -/
theorem Cut.pieces_eq (h : Cut t slots last) :
    pieces t = (slots.flatMap fun slot => slot.before.map .literal ++ [.group slot.digits]) ++
      last.map .literal := by
  induction h with
  | @last t hnone =>
    have hrest : pieces (t ++ []) = t.map .literal ++ pieces [] :=
      pieces_append (by simpa using fun s hs _ => hnone s hs)
    simpa [pieces] using hrest
  | slot hsplit hopens hfirst _ ih =>
    subst hsplit
    rw [pieces_append hfirst, pieces_of_opens hopens, ih]
    simp

/-- Between the braces of a slot there are decimal digits, at least one. -/
theorem Cut.of_mem (h : Cut t slots last) (hslot : slot ∈ slots) :
    slot.digits ≠ [] ∧ ∀ c ∈ slot.digits, Text.isDecimalDigit c = true := by
  induction h with
  | last => simp at hslot
  | slot _ hopens _ _ ih =>
    rcases List.mem_cons.mp hslot with rfl | hslot
    · exact ⟨hopens.nonempty, hopens.decimal⟩
    · exact ih hslot

/-! ## Filling a template -/

section Fill

variable (hne : slot.digits ≠ []) (hdecimal : ∀ c ∈ slot.digits, Text.isDecimalDigit c = true)

include hne hdecimal

/-- The text of a slot is that of the group whose number is read from it. -/
theorem fill_group_eq_ok_iff {filled : Text} :
    Piece.fill groups (.group slot.digits) = .ok filled ↔
      ∃ text, Fills groups slot text ∧ text.toList = filled := by
  have hread {number : Nat} : Text.number? slot.digits = some number ↔
      Text.ReadAs slot.digits number := Text.number?_eq_some_iff hne hdecimal
  rw [Piece.fill]
  constructor
  · intro h
    split at h
    · contradiction
    · rename_i number hnumber
      split at h
      · contradiction
      · rename_i text htext
        exact ⟨text, ⟨number, hread.mp hnumber, htext⟩, Except.ok.inj h⟩
  · rintro ⟨text, ⟨number, hreads, htext⟩, rfl⟩
    rw [hread.mpr hreads]
    simp only [htext]

/-- A slot cannot be filled if no number is read from it, or if there is no group with this
number. -/
theorem fill_group_eq_error_iff {error : HandlerError} :
    Piece.fill groups (.group slot.digits) = .error error ↔ Fault groups slot error := by
  have hread {number : Nat} : Text.number? slot.digits = some number ↔
      Text.ReadAs slot.digits number := Text.number?_eq_some_iff hne hdecimal
  rw [Piece.fill]
  constructor
  · intro h
    split at h
    · rename_i hnumber
      obtain rfl := Except.error.inj h
      refine .badGroup fun number hreads => ?_
      rw [hread.mpr hreads] at hnumber
      contradiction
    · rename_i number hnumber
      split at h
      · rename_i hmissing
        obtain rfl := Except.error.inj h
        exact .missingGroup (hread.mp hnumber) hmissing
      · contradiction
  · intro h
    cases h with
    | badGroup hunread =>
      have hnone : Text.number? slot.digits = none :=
        Option.eq_none_iff_forall_ne_some.mpr fun number hnumber =>
          hunread number (hread.mp hnumber)
      rw [hnone]
    | missingGroup hreads hmissing =>
      rw [hread.mpr hreads]
      simp only [hmissing]

end Fill

/-- Characters that stand for themselves are never at fault. -/
theorem mapM_fill_literal (groups : Groups) (t : Text) :
    (t.map Piece.literal).mapM (Piece.fill groups) = .ok (t.map fun c => [c]) := by
  induction t with
  | nil => rfl
  | cons c t ih =>
    rw [List.map_cons, List.mapM_cons, ih]
    rfl

/-- The text of some slots with what stands before each of them, and of what is left behind. -/
def fillSlots (groups : Groups) (last : Text) : List Slot → Except HandlerError Text
  | [] => .ok last
  | slot :: slots => do
    let text ← Piece.fill groups (.group slot.digits)
    let others ← fillSlots groups last slots
    return slot.before ++ (text ++ others)

/-- A template is filled slot by slot. -/
theorem Cut.expand_eq (h : Cut t slots last) : expand groups t = fillSlots groups last slots := by
  have hflatten (t : Text) : (t.map fun c => [c]).flatten = t := by
    rw [← List.flatMap_def, List.flatMap_singleton']
  rw [expand, h.pieces_eq]
  clear h
  induction slots with
  | nil =>
    rw [List.flatMap_nil, List.nil_append, mapM_fill_literal]
    simp [fillSlots, pure, Except.pure, hflatten]
  | cons slot slots ih =>
    rw [fillSlots, ← ih, List.flatMap_cons, List.append_assoc, List.append_assoc, List.mapM_append,
      mapM_fill_literal, ok_bind, List.singleton_append, List.mapM_cons]
    cases Piece.fill groups (.group slot.digits) with
    | error error => rfl
    | ok text =>
      rw [ok_bind, ok_bind]
      cases List.mapM (Piece.fill groups) _ with
      | error error => rfl
      | ok others => simp [pure, Except.pure, hflatten]

/-- Slots are filled from left to right, and the first one that cannot be filled ends it. -/
theorem error?_fillSlots (groups : Groups) (last : Text) (slots : List Slot) :
    error? (fillSlots groups last slots) =
      slots.findSome? fun slot => error? (Piece.fill groups (.group slot.digits)) := by
  induction slots with
  | nil => rfl
  | cons slot slots ih =>
    rw [fillSlots, error?_bind_bind_pure, ih, List.findSome?_cons]
    cases Piece.fill groups (.group slot.digits) <;> rfl

section Slots

variable (h : ∀ slot ∈ slots,
  slot.digits ≠ [] ∧ ∀ c ∈ slot.digits, Text.isDecimalDigit c = true)

include h

/-- Filling succeeds if every slot can be filled. -/
theorem fillSlots_eq_ok_iff {filled : Text} :
    fillSlots groups last slots = .ok filled ↔
      ∃ texts, List.Forall₂ (Fills groups) slots texts ∧ assemble last slots texts = filled := by
  induction slots generalizing filled with
  | nil => simp [fillSlots, assemble]
  | cons slot slots ih =>
    obtain ⟨hslot, hslots⟩ := List.forall_mem_cons.mp h
    simp only [fillSlots, bind_eq_ok_iff, fill_group_eq_ok_iff hslot.1 hslot.2, ih hslots]
    constructor
    · rintro ⟨_, ⟨text, htext, rfl⟩, _, ⟨texts, htexts, rfl⟩, hfilled⟩
      exact ⟨text :: texts, .cons htext htexts, Except.ok.inj hfilled⟩
    · rintro ⟨_, htexts, rfl⟩
      cases htexts with
      | cons htext htexts => exact ⟨_, ⟨_, htext, rfl⟩, _, ⟨_, htexts, rfl⟩, rfl⟩

/-- The first slot that cannot be filled is the one that counts. -/
theorem fillSlots_eq_error_iff {error : HandlerError} :
    fillSlots groups last slots = .error error ↔
      ∃ earlier slot later, slots = earlier ++ slot :: later ∧
        (∀ s ∈ earlier, ∃ text, Fills groups s text) ∧ Fault groups slot error := by
  rw [← error?_eq_some_iff, error?_fillSlots, List.findSome?_eq_some_iff]
  refine exists_congr fun earlier => exists_congr fun slot => exists_congr fun later =>
    and_congr_right ?_
  rintro rfl
  have hslot := h slot (by simp)
  rw [and_comm, error?_eq_some_iff, fill_group_eq_error_iff hslot.1 hslot.2]
  refine and_congr_left' (forall₂_congr fun s hs => ?_)
  have hs := h s (List.mem_append_left _ hs)
  simp [error?_eq_none_iff, fill_group_eq_ok_iff hs.1 hs.2]

end Slots

/-- A template is cut at its slots in one way, from left to right. If all slots can be filled, it is
filled by putting the texts of the groups in the places of the slots. If not, the error is that of
the first slot that cannot. -/
theorem expand_in_one_pass (groups : Groups) (template : Text) :
    ∃ slots last, (∀ slots' last', Cut template slots' last' ↔ slots' = slots ∧ last' = last) ∧
      (∀ filled, expand groups template = .ok filled ↔
        ∃ texts, List.Forall₂ (Fills groups) slots texts ∧ assemble last slots texts = filled) ∧
      (∀ error, expand groups template = .error error ↔
        ∃ earlier slot later, slots = earlier ++ slot :: later ∧
          (∀ s ∈ earlier, ∃ text, Fills groups s text) ∧ Fault groups slot error) ∧
      ∀ digits, (HandlerError.badGroup digits).message = "bad group \x7b" ++ digits ++ "\x7d" := by
  obtain ⟨slots, last, hcut⟩ := exists_cut template
  refine ⟨slots, last, fun slots' last' => ⟨fun h => h.unique hcut, ?_⟩, ?_, ?_, fun _ => rfl⟩
  · rintro ⟨rfl, rfl⟩
    exact hcut
  · intro filled
    rw [hcut.expand_eq, fillSlots_eq_ok_iff fun slot => hcut.of_mem]
  · intro error
    rw [hcut.expand_eq, fillSlots_eq_error_iff fun slot => hcut.of_mem]

/-- Braces around a slot stay, and a slot in a text that is put in is no slot of the template. -/
example : expand [(0, "\x7b1\x7d")] "\x7b\x7b00\x7d\x7d \x7b\x7d".toList =
    .ok "\x7b\x7b1\x7d\x7d \x7b\x7d".toList := by
  cbv

/-- Arabic digits make a slot, but they are not read. -/
example : expand [(1, "one")] "\x7b1\x7d \x7b\u0661\x7d \x7b2\x7d".toList =
    .error (.badGroup "\u0661") := by
  cbv

end Template

end Rejoinder
