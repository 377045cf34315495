/-!
# Sets of characters

What a single step of a regular expression accepts: some characters, or all but some. Sets are kept
with their characters in ascending order, each once, so equal sets are equal values, and the union
of two sets is one of these again (`holds_union`).
-/

set_option autoImplicit false

namespace Rejoinder.Regex

/-- A set of characters. -/
inductive CharSet
  /-- These characters only. -/
  | only (chars : List Char)
  /-- All characters but these. -/
  | allBut (chars : List Char)
deriving DecidableEq, Repr

namespace CharSet

/-- Whether a character belongs to the set. -/
def holds : CharSet → Char → Bool
  | only chars, c => chars.contains c
  | allBut chars, c => !chars.contains c

/-- The characters of a list in ascending order with one more character put in. -/
def insertChar (c : Char) : List Char → List Char
  | [] => [c]
  | d :: rest =>
    if c < d then c :: d :: rest
    else if c = d then d :: rest
    else d :: insertChar c rest

/-- The set without characters. -/
def empty : CharSet := only []

/-- The set of the characters of a list. -/
def ofChars (chars : List Char) : CharSet :=
  only (chars.foldl (fun sorted c => insertChar c sorted) [])

/-- The characters that belong to one of two sets. -/
def union : CharSet → CharSet → CharSet
  | only as, only bs => only (as.foldl (fun sorted c => insertChar c sorted) bs)
  | only as, allBut bs => allBut (bs.filter (!as.contains ·))
  | allBut as, only bs => allBut (as.filter (!bs.contains ·))
  | allBut as, allBut bs => allBut (as.filter (bs.contains ·))

/-- The ranges of a list of characters in ascending order. -/
def runs : List Char → List (Nat × Nat)
  | [] => []
  | c :: rest =>
    match runs rest with
    | [] => [(c.toNat, c.toNat)]
    | (first, last) :: others =>
      if c.toNat + 1 = first then (c.toNat, last) :: others
      else (c.toNat, c.toNat) :: (first, last) :: others

/-- The ranges from a code point on between the characters of a list in ascending order. -/
def gaps (first : Nat) : List Char → List (Nat × Nat)
  | [] => if first ≤ 0x10FFFF then [(first, 0x10FFFF)] else []
  | c :: rest =>
    if first < c.toNat then (first, c.toNat - 1) :: gaps (c.toNat + 1) rest
    else gaps (c.toNat + 1) rest

/-- The ranges of code points that make up the set, in ascending order. The code points between
them that are no characters may be included. -/
def ranges : CharSet → List (Nat × Nat)
  | only chars => runs chars
  | allBut chars => gaps 0 chars

/-- Putting a character in adds it and nothing else. -/
theorem mem_insertChar {c d : Char} {chars : List Char} :
    d ∈ insertChar c chars ↔ d = c ∨ d ∈ chars := by
  induction chars with
  | nil => simp [insertChar]
  | cons e rest ih =>
    rw [insertChar]
    split
    · simp
    · split
      · rename_i h
        simp [h]
      · simp only [List.mem_cons, ih]
        exact or_left_comm

/-- Inserting characters one by one keeps the old ones and adds the new ones. -/
theorem mem_foldl_insertChar {c : Char} {new old : List Char} :
    c ∈ new.foldl (fun sorted d => insertChar d sorted) old ↔ c ∈ new ∨ c ∈ old := by
  induction new generalizing old with
  | nil => simp
  | cons d rest ih =>
    rw [List.foldl_cons, ih, mem_insertChar, List.mem_cons]
    exact or_left_comm.trans or_assoc.symm

/-- The set of the characters of a list holds these characters. -/
theorem holds_ofChars {c : Char} {chars : List Char} :
    (ofChars chars).holds c = chars.contains c := by
  simp [ofChars, holds, mem_foldl_insertChar]

/-- A union holds what one of its two parts holds. -/
theorem holds_union {s t : CharSet} {c : Char} :
    (s.union t).holds c = (s.holds c || t.holds c) := by
  rw [Bool.eq_iff_iff, Bool.or_eq_true]
  cases s <;> cases t <;> simp only [union, holds, List.contains_iff_mem, mem_foldl_insertChar,
    Bool.not_eq_true', Bool.eq_false_iff, ne_eq, List.mem_filter] <;> grind

end CharSet

end Rejoinder.Regex
