import Mathlib
import Rejoinder.Pattern.Token

/-!
# Classes of characters

The characters of literal words are letters and numbers, so they are neither blanks nor any of the
characters that mean something in a pattern or in a regular expression. The same holds for the
characters of names. These facts are read off the tables once, and everything that prints, scans
or renders words uses them by name.
-/

set_option autoImplicit false

namespace Rejoinder

namespace Text

/-- A code point that is found in a table lies in one of its ranges. -/
theorem exists_range_of_inRanges {ranges : List (Nat × Nat)} {n : Nat}
    (h : inRanges ranges n = true) : ∃ r ∈ ranges, r.1 ≤ n ∧ n ≤ r.2 := by
  induction ranges with
  | nil => simp [inRanges] at h
  | cons r rest ih =>
    obtain ⟨first, last⟩ := r
    rw [inRanges] at h
    split at h
    · simp at h
    · split at h
      · exact ⟨(first, last), List.mem_cons_self, by simp only; omega⟩
      · obtain ⟨r, hr, hn⟩ := ih h
        exact ⟨r, List.mem_cons_of_mem _ hr, hn⟩

/-- The code points of some ranges, one by one. -/
def members (ranges : List (Nat × Nat)) : List Nat :=
  ranges.flatMap fun r => List.range' r.1 (r.2 + 1 - r.1)

/-- What holds of the members of some ranges one by one holds of all code points in them. -/
theorem of_all_members {ranges : List (Nat × Nat)} {p : Nat → Bool}
    (hall : (members ranges).all p = true) {n : Nat} (h : inRanges ranges n = true) :
    p n = true := by
  obtain ⟨r, hr, hn⟩ := exists_range_of_inRanges h
  have hmem : n ∈ members ranges :=
    List.mem_flatMap.mpr ⟨r, hr, List.mem_range'_1.mpr ⟨hn.1, by omega⟩⟩
  exact List.all_eq_true.mp hall n hmem

/-- A table that excludes the members of some ranges one by one excludes all of them. -/
theorem inRanges_eq_false_of_all {ranges excluded : List (Nat × Nat)} {n : Nat}
    (hall : (members ranges).all (!inRanges excluded ·) = true)
    (h : inRanges ranges n = true) : inRanges excluded n = false := by
  simpa using of_all_members hall h

/-- No blank is a letter or a number. -/
theorem isAlphanumeric_of_isBlank {c : Char} (h : isBlank c = true) :
    isAlphanumeric c = false :=
  inRanges_eq_false_of_all (by decide +kernel) h

/-- Letters and numbers are no blanks. -/
theorem isBlank_of_isAlphanumeric {c : Char} (h : isAlphanumeric c = true) : isBlank c = false := by
  cases hblank : isBlank c with
  | false => rfl
  | true =>
    rw [isAlphanumeric_of_isBlank hblank] at h
    contradiction

end Text

namespace Token

/-- The characters that mean something in a pattern or in a regular expression, and the space. -/
def reserved : List Char :=
  ['*', '_', '(', ')', '|', '[', ']', '%', '?', '+', '.', '^', '$', '\x7b', '\\', ' ', '\n']

/-- A character of words is not among characters that are none. -/
theorem not_mem_of_isWordChar {c : Char} (h : isWordChar c = true) {cs : List Char}
    (hcs : cs.all (!isWordChar ·) = true) : c ∉ cs := by
  intro hc
  have hno := List.all_eq_true.mp hcs c hc
  rw [h] at hno
  exact absurd hno (by decide)

/-- No reserved character is part of a word. -/
theorem not_mem_reserved {c : Char} (h : isWordChar c = true) : c ∉ reserved :=
  not_mem_of_isWordChar h (by decide +kernel)

/-- No character of a word is a blank. -/
theorem isBlank_of_isWordChar {c : Char} (h : isWordChar c = true) : Text.isBlank c = false := by
  rw [isWordChar, Bool.and_eq_true] at h
  exact Text.isBlank_of_isAlphanumeric h.1

/-- No character of a word is a symbol. -/
theorem symbol?_of_isWordChar {c : Char} (h : isWordChar c = true) : symbol? c = none := by
  have hr := not_mem_reserved h
  simp only [reserved, List.mem_cons, not_or] at hr
  unfold symbol?
  split <;> simp_all

/-- A name is written with a first letter and characters that a name may have. -/
def isName : Text → Bool
  | [] => false
  | first :: rest => isNameStart first && rest.all isNameChar

/-- Every character of a name may occur in a name. -/
theorem isNameChar_of_isName {name : Text} (h : isName name = true) :
    ∀ c ∈ name, isNameChar c = true := by
  cases name with
  | nil => simp
  | cons first rest =>
    simp only [isName, Bool.and_eq_true, List.all_eq_true] at h
    intro c hc
    rcases List.mem_cons.mp hc with rfl | hc
    · simp [isNameChar, h.1]
    · exact h.2 c hc

/-- The code points of the characters of names. -/
def nameRanges : List (Nat × Nat) := [(0x30, 0x39), (0x5F, 0x5F), (0x61, 0x7A)]

/-- A character of a name is an ASCII digit, an underscore or an ASCII letter in lower case. -/
theorem inRanges_nameRanges {c : Char} (h : isNameChar c = true) :
    Text.inRanges nameRanges c.toNat = true := by
  simp only [isNameChar, isNameStart, Char.isDigit, Bool.or_eq_true, Bool.and_eq_true,
    decide_eq_true_eq, beq_iff_eq, Char.le_def, UInt32.le_iff_toNat_le] at h
  rcases h with (h | h) | rfl
  · change 97 ≤ c.toNat ∧ c.toNat ≤ 122 at h
    simp only [nameRanges, Text.inRanges]
    split_ifs <;> first | rfl | omega
  · change 48 ≤ c.toNat ∧ c.toNat ≤ 57 at h
    simp only [nameRanges, Text.inRanges]
    split_ifs <;> first | rfl | omega
  · decide

/-- No reference ends before a character of a name. -/
theorem endsReference_of_isNameChar {c : Char} (h : isNameChar c = true) :
    endsReference c = false := by
  have hblank : Text.isBlank c = false :=
    Text.inRanges_eq_false_of_all (by decide +kernel) (inRanges_nameRanges h)
  have hall : ['(', ')', '[', ']', '|'].all (!isNameChar ·) = true := by decide
  have hne : ∀ d ∈ ['(', ')', '[', ']', '|'], c ≠ d := by
    rintro d hd rfl
    have hno := List.all_eq_true.mp hall c hd
    rw [h] at hno
    exact absurd hno (by decide)
  simp only [List.forall_mem_cons, List.not_mem_nil, false_implies, implies_true, and_true] at hne
  simp [endsReference, hblank, hne]

/-- What follows `%a:` in a reference is a name. -/
theorem reference?_eq_some_iff {t : Text} {name : String} :
    reference? t = some name ↔
      t = '%' :: 'a' :: ':' :: name.toList ∧ isName name.toList = true := by
  constructor
  · intro h
    unfold reference? at h
    split at h
    · rename_i first rest
      split at h
      · rename_i hname
        obtain rfl := Option.some.inj h
        rw [String.toList_ofList]
        exact ⟨rfl, hname⟩
      · simp at h
    · simp at h
  · rintro ⟨rfl, hname⟩
    cases hl : name.toList with
    | nil => simp [hl, isName] at hname
    | cons first rest =>
      rw [hl] at hname
      have hback : String.ofList (first :: rest) = name := by rw [← hl, String.ofList_toList]
      simp only [isName] at hname
      simp [reference?, hname, hback]

end Token

end Rejoinder
