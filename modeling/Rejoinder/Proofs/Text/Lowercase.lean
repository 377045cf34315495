import Mathlib
import Rejoinder.Proofs.Pattern.WellFormed
import Rejoinder.Text.Lowercase

/-!
# Lower case forms

Literal words have no character in upper case, but that does not make them lower case: the title
case letters, such as `ǅ`, are neither, and they have lower case forms other than themselves. They
are the only exception. A literal word is its own lower case form if it has no title case letter
(`lowercase_eq_self`), and no lower case form of any text has one
(`isTitlecase_of_mem_lowercase`). Every character of a lower case form is its own lower case form
(`lowercaseChar_of_mem_lowercase`), so a text in lower case stays as it is.

The facts about single characters are read off the tables of code points, run by run. Most of them
compare two tables. Both ascend, so one walk through both (`passes`) is enough, and a table is not
searched from its beginning for every code point of the other.
-/

set_option autoImplicit false

namespace Rejoinder

namespace Text

/-- The code points of the category `Lt`. -/
def titlecaseRanges : List (Nat × Nat) :=
  [(0x1C5, 0x1C5), (0x1C8, 0x1C8), (0x1CB, 0x1CB), (0x1F2, 0x1F2), (0x1F88, 0x1F8F),
   (0x1F98, 0x1F9F), (0x1FA8, 0x1FAF), (0x1FBC, 0x1FBC), (0x1FCC, 0x1FCC), (0x1FFC, 0x1FFC)]

/-- Whether a character is a title case letter. -/
def isTitlecase (c : Char) : Bool := inRanges titlecaseRanges c.toNat

/-! ## Two tables in one walk -/

section Passes

variable {α β γ : Type} {ends : Nat → α → Bool} {table : List α} {key : β → Nat}
  {test : List α → β → Bool}

/-- Whether some entries pass a test against what is left of a table behind the entries that end
before their keys. Where the keys ascend, the walk goes on from `later`, which is what is left
behind the last key; where they descend, it begins anew. -/
def passes (ends : Nat → α → Bool) (table : List α) (key : β → Nat) (test : List α → β → Bool)
    (last : Nat) (later : List α) : List β → Bool
  | [] => true
  | b :: bs =>
    let later := (if key b < last then table else later).dropWhile (ends (key b))
    test later b && passes ends table key test (key b) later bs

/-- An entry passes the test against a list in which everything from its key on is found as in the
whole table. -/
theorem exists_of_passes {look : List α → Nat → γ}
    (hends : ∀ {entries : List α} {m n : Nat}, m ≤ n →
      look (entries.dropWhile (ends m)) n = look entries n)
    {last : Nat} {later : List α} {bs : List β}
    (h : passes ends table key test last later bs = true)
    (hlater : ∀ n, last ≤ n → look later n = look table n) {b : β} (hb : b ∈ bs) :
    ∃ later, test later b = true ∧ ∀ n, key b ≤ n → look later n = look table n := by
  induction bs generalizing last later with
  | nil => simp at hb
  | cons c bs ih =>
    obtain ⟨htest, hrest⟩ := (Bool.and_eq_true _ _).mp h
    have hnext : ∀ n, key c ≤ n →
        look ((if key c < last then table else later).dropWhile (ends (key c))) n =
          look table n := by
      intro n hn
      rw [hends hn]
      split
      · rfl
      · exact hlater n (by omega)
    rcases List.mem_cons.mp hb with rfl | hb
    · exact ⟨_, htest, hnext⟩
    · exact ih hrest hnext hb

end Passes

/-! ## Code points -/

/-- The members of a run, one by one. -/
def Run.members (r : Run) : List Nat :=
  List.range' r.first ((r.last - r.first) / r.step + 1) r.step

/-- What it means to be a member of a run. -/
theorem Run.holds_iff {r : Run} {n : Nat} :
    r.holds n = true ↔ r.first ≤ n ∧ n ≤ r.last ∧ (n - r.first) % r.step = 0 := by
  simp [holds, and_assoc]

/-- A number that a run holds is listed among its members. -/
theorem Run.mem_members {r : Run} {n : Nat} (h : r.holds n = true) : n ∈ r.members := by
  obtain ⟨hfirst, hlast, hstep⟩ := holds_iff.mp h
  refine List.mem_range'.mpr ⟨(n - r.first) / r.step, ?_, ?_⟩
  · exact Nat.lt_succ_of_le (Nat.div_le_div_right (Nat.sub_le_sub_right hlast _))
  · rw [Nat.mul_div_cancel' (Nat.dvd_of_mod_eq_zero hstep)]
    omega

/-- The run ends before a code point. -/
def Run.endsBefore (n : Nat) (r : Run) : Bool := r.first ≤ n && r.last < n

/-- Runs that end before a code point do not matter for later ones. -/
theorem inRuns_dropWhile {runs : List Run} {m n : Nat} (h : m ≤ n) :
    inRuns (runs.dropWhile (Run.endsBefore m)) n = inRuns runs n := by
  induction runs with
  | nil => rfl
  | cons r runs ih =>
    rw [List.dropWhile_cons]
    split
    · rename_i hends
      simp only [Run.endsBefore, Bool.and_eq_true, decide_eq_true_eq] at hends
      rw [ih, inRuns, if_neg (by omega), if_neg (by omega)]
    · rfl

/-- A code point is its own lower case form, or a run tells which one it has. -/
theorem lowercaseCode_eq_self_or (runs : List LowercaseRun) (n : Nat) :
    lowercaseCode runs n = n ∨ ∃ r ∈ runs, r.run.holds n = true ∧
      lowercaseCode runs n = r.image + (n - r.run.first) := by
  induction runs with
  | nil => exact .inl rfl
  | cons r runs ih =>
    rw [lowercaseCode]
    split_ifs with hbefore hspan hholds
    · exact .inl rfl
    · exact .inr ⟨r, List.mem_cons_self, hholds, rfl⟩
    · exact .inl rfl
    · rcases ih with hself | ⟨r', hr', hholds, himage⟩
      · exact .inl hself
      · exact .inr ⟨r', List.mem_cons_of_mem _ hr', hholds, himage⟩

/-- A code point with another lower case form is in upper case or in title case. -/
theorem upper_or_title_of_lowercaseCode {n : Nat} (h : lowercaseCode lowercaseRuns n ≠ n) :
    inRuns uppercaseRuns n = true ∨ inRanges titlecaseRanges n = true := by
  have hall : passes Run.endsBefore uppercaseRuns (fun r => r.run.first)
      (fun later r => r.run.members.all fun n => inRuns later n || inRanges titlecaseRanges n)
      0 uppercaseRuns lowercaseRuns = true := by
    decide
  obtain ⟨r, hr, hholds, _⟩ := (lowercaseCode_eq_self_or _ n).resolve_left h
  obtain ⟨later, htest, hlater⟩ := exists_of_passes inRuns_dropWhile hall (fun _ _ => rfl) hr
  have hmember := List.all_eq_true.mp htest n (Run.mem_members hholds)
  rwa [hlater n (Run.holds_iff.mp hholds).1, Bool.or_eq_true] at hmember

/-- A code point beyond or before all ranges is in none. -/
theorem inRanges_eq_false {ranges : List (Nat × Nat)} {n : Nat}
    (h : ∀ r ∈ ranges, n < r.1 ∨ r.2 < n) : inRanges ranges n = false := by
  cases hin : inRanges ranges n with
  | false => rfl
  | true =>
    obtain ⟨r, hr, hn⟩ := exists_range_of_inRanges hin
    have hout := h r hr
    omega

/-- No lower case form is in title case. -/
theorem inRanges_titlecase_lowercaseCode (n : Nat) :
    inRanges titlecaseRanges (lowercaseCode lowercaseRuns n) = false := by
  rcases lowercaseCode_eq_self_or lowercaseRuns n with hself | ⟨r, hr, hholds, himage⟩
  · cases htitle : inRanges titlecaseRanges n with
    | false => rw [hself, htitle]
    | true =>
      have hall : (members titlecaseRanges).all (fun n =>
          lowercaseCode lowercaseRuns n != n) = true := by
        decide
      have hother := of_all_members hall htitle
      simp [hself] at hother
  · have hall : (lowercaseRuns.all fun r => titlecaseRanges.all fun t =>
        r.image + (r.run.last - r.run.first) < t.1 || t.2 < r.image) = true := by
      decide
    have hends := (Run.holds_iff.mp hholds).2.1
    rw [himage]
    refine inRanges_eq_false fun t ht => ?_
    have happart := List.all_eq_true.mp (List.all_eq_true.mp hall r hr) t ht
    simp only [Bool.or_eq_true, decide_eq_true_eq] at happart
    omega

/-- Runs that end before a code point do not matter for the lower case forms of later ones. -/
theorem lowercaseCode_dropWhile {runs : List LowercaseRun} {m n : Nat} (h : m ≤ n) :
    lowercaseCode (runs.dropWhile fun r => r.run.endsBefore m) n = lowercaseCode runs n := by
  induction runs with
  | nil => rfl
  | cons r runs ih =>
    rw [List.dropWhile_cons]
    split
    · rename_i hends
      simp only [Run.endsBefore, Bool.and_eq_true, decide_eq_true_eq] at hends
      rw [ih, lowercaseCode, if_neg (by omega), if_neg (by omega)]
    · rfl

/-- A lower case form of one character is its own lower case form. -/
theorem lowercaseCode_lowercaseCode (n : Nat) :
    lowercaseCode lowercaseRuns (lowercaseCode lowercaseRuns n) =
      lowercaseCode lowercaseRuns n := by
  have hall : passes (fun m r => r.run.endsBefore m) lowercaseRuns LowercaseRun.image
      (fun later r => r.run.members.all fun n =>
        lowercaseCode later (r.image + (n - r.run.first)) == r.image + (n - r.run.first))
      0 lowercaseRuns lowercaseRuns = true := by
    decide +kernel
  rcases lowercaseCode_eq_self_or lowercaseRuns n with hself | ⟨r, hr, hholds, himage⟩
  · rw [hself, hself]
  · obtain ⟨later, htest, hlater⟩ :=
      exists_of_passes lowercaseCode_dropWhile hall (fun _ _ => rfl) hr
    have hmember := List.all_eq_true.mp htest n (Run.mem_members hholds)
    rw [himage, ← hlater _ (Nat.le_add_right r.image (n - r.run.first))]
    exact beq_iff_eq.mp hmember

/-- The letter `İ`, which has a lower case form of two characters, is in no lower case form. -/
theorem lowercaseCode_ne {n : Nat} (h : n ≠ 0x130) : lowercaseCode lowercaseRuns n ≠ 0x130 := by
  have hall : (lowercaseRuns.all fun r =>
      r.image + (r.run.last - r.run.first) < 0x130 || 0x130 < r.image) = true := by
    decide
  rcases lowercaseCode_eq_self_or lowercaseRuns n with hself | ⟨r, hr, hholds, himage⟩
  · rwa [hself]
  · have hends := (Run.holds_iff.mp hholds).2.1
    have happart := List.all_eq_true.mp hall r hr
    simp only [Bool.or_eq_true, decide_eq_true_eq] at happart
    rw [himage]
    omega

/-! ## Characters -/

/-- A number that is no character counts as the character zero. -/
theorem ofNat_eq_zero_or (n : Nat) : Char.ofNat n = '\x00' ∨ (Char.ofNat n).toNat = n := by
  by_cases h : n.isValidChar
  · exact .inr (by rw [Char.toNat_ofNat, if_pos h])
  · exact .inl (by rw [Char.ofNat, dif_neg h]; rfl)

/-- The character with a code point that is not in title case is no title case letter. -/
theorem isTitlecase_ofNat {n : Nat} (h : inRanges titlecaseRanges n = false) :
    isTitlecase (Char.ofNat n) = false := by
  rcases ofNat_eq_zero_or n with hzero | hvalue
  · rw [hzero]
    rfl
  · rw [isTitlecase, hvalue, h]

/-- No title case letter is a blank. -/
theorem isBlank_of_isTitlecase {c : Char} (h : isTitlecase c = true) : isBlank c = false :=
  inRanges_eq_false_of_all (by decide) h

/-- A character of a literal word that is no title case letter is its own lower case form. -/
theorem lowercaseChar_eq_self {c : Char} (h : Token.isWordChar c = true)
    (htitle : isTitlecase c = false) : lowercaseChar c = [c] := by
  have hupper : isUppercase c = false := by
    simp only [Token.isWordChar, Bool.and_eq_true, Bool.not_eq_true'] at h
    exact h.2
  have hne : c ≠ '\u0130' := by
    rintro rfl
    exact absurd hupper (by decide)
  have hself : lowercaseCode lowercaseRuns c.toNat = c.toNat := by
    by_contra hother
    rcases upper_or_title_of_lowercaseCode hother with hcase | hcase
    · simp [isUppercase, hcase] at hupper
    · simp [isTitlecase, hcase] at htitle
  rw [lowercaseChar, if_neg hne, hself, Char.ofNat_toNat]

/-- No character of a lower case form is a title case letter. -/
theorem isTitlecase_of_mem_lowercaseChar {c d : Char} (h : d ∈ lowercaseChar c) :
    isTitlecase d = false := by
  rw [lowercaseChar] at h
  split at h
  · have hall : ['i', '\u0307'].all (!isTitlecase ·) = true := by decide
    simpa using List.all_eq_true.mp hall d h
  · obtain rfl := List.mem_singleton.mp h
    exact isTitlecase_ofNat (inRanges_titlecase_lowercaseCode _)

/-- The lower case form of a character is made of characters in lower case. -/
theorem lowercaseChar_of_mem_lowercaseChar {c d : Char} (h : d ∈ lowercaseChar c) :
    lowercaseChar d = [d] := by
  rw [lowercaseChar] at h
  split at h
  · have hall : ['i', '\u0307'].all (fun d => lowercaseChar d == [d]) = true := by decide
    simpa using List.all_eq_true.mp hall d h
  · rename_i hne
    obtain rfl := List.mem_singleton.mp h
    have hcode : c.toNat ≠ 0x130 := fun heq => hne (Char.toNat_inj.mp heq)
    rcases ofNat_eq_zero_or (lowercaseCode lowercaseRuns c.toNat) with hzero | hvalue
    · rw [hzero]
      decide
    · have hne' : Char.ofNat (lowercaseCode lowercaseRuns c.toNat) ≠ '\u0130' := by
        intro heq
        exact lowercaseCode_ne hcode (hvalue ▸ congrArg Char.toNat heq)
      rw [lowercaseChar, if_neg hne', hvalue, lowercaseCode_lowercaseCode]

/-! ## Texts -/

/-- A character of a lower case form is a small sigma or comes from one character of the text. -/
theorem exists_of_mem_lowercase {t : Text} {d : Char} (h : d ∈ lowercase t) :
    d = 'ς' ∨ d = 'σ' ∨ ∃ c ∈ t, d ∈ lowercaseChar c := by
  suffices hafter : ∀ before, d ∈ lowercaseAfter before t →
      d = 'ς' ∨ d = 'σ' ∨ ∃ c ∈ t, d ∈ lowercaseChar c from hafter [] h
  clear h
  induction t with
  | nil => simp [lowercaseAfter]
  | cons c t ih =>
    intro before h
    rw [lowercaseAfter, List.mem_append] at h
    rcases h with h | h
    · split at h
      · obtain rfl := List.mem_singleton.mp h
        split
        · exact .inl rfl
        · exact .inr (.inl rfl)
      · exact .inr (.inr ⟨c, List.mem_cons_self, h⟩)
    · exact (ih _ h).imp_right (Or.imp_right fun ⟨e, he, hd⟩ => ⟨e, List.mem_cons_of_mem _ he, hd⟩)

/-- No title case letter is left in lower case. -/
theorem isTitlecase_of_mem_lowercase {t : Text} {d : Char} (h : d ∈ lowercase t) :
    isTitlecase d = false := by
  rcases exists_of_mem_lowercase h with rfl | rfl | ⟨c, _, hd⟩
  · decide
  · decide
  · exact isTitlecase_of_mem_lowercaseChar hd

/-- The lower case form of a text is made of characters in lower case. -/
theorem lowercaseChar_of_mem_lowercase {t : Text} {d : Char} (h : d ∈ lowercase t) :
    lowercaseChar d = [d] := by
  rcases exists_of_mem_lowercase h with rfl | rfl | ⟨c, _, hd⟩
  · decide
  · decide
  · exact lowercaseChar_of_mem_lowercaseChar hd

/-- A text of characters in lower case is its own lower case form. -/
theorem lowercase_of_lowercaseChar {w : Text} (h : ∀ c ∈ w, lowercaseChar c = [c]) :
    lowercase w = w := by
  suffices hafter : ∀ before, lowercaseAfter before w = w from hafter []
  induction w with
  | nil => simp [lowercaseAfter]
  | cons c w ih =>
    intro before
    obtain ⟨hc, hw⟩ := List.forall_mem_cons.mp h
    have hne : c ≠ 'Σ' := by
      rintro rfl
      exact absurd hc (by decide)
    rw [lowercaseAfter, if_neg hne, hc, ih hw, List.singleton_append]

/-- A literal word without a title case letter is its own lower case form. -/
theorem lowercase_eq_self {w : Text} (h : ∀ c ∈ w, Token.isWordChar c = true)
    (htitle : ∀ c ∈ w, isTitlecase c = false) : lowercase w = w :=
  lowercase_of_lowercaseChar fun c hc => lowercaseChar_eq_self (h c hc) (htitle c hc)

end Text

end Rejoinder
