/-!
# Tables

A table maps keys to values. It remembers the order in which its keys came in, holds every key
once, and is otherwise known by its look-ups: `get?_insert` and `get?_erase` say what the two
changes do to them.
-/

set_option autoImplicit false

namespace Rejoinder

/-- A finite map in the order in which its keys were first inserted. -/
structure Table (κ α : Type) where
  entries : List (κ × α)
  distinct : (entries.map Prod.fst).Nodup

namespace Table

variable {κ α β : Type} [DecidableEq κ]

/-- The value of a key in a list of entries. -/
def find? (k : κ) : List (κ × α) → Option α
  | [] => none
  | (l, v) :: rest => if l = k then some v else find? k rest

/-- The entries with the value of a key replaced, or with the key at the end if it is new. -/
def put (k : κ) (v : α) : List (κ × α) → List (κ × α)
  | [] => [(k, v)]
  | (l, w) :: rest => if l = k then (k, v) :: rest else (l, w) :: put k v rest

/-- The entries without a key. -/
def drop (k : κ) (entries : List (κ × α)) : List (κ × α) := entries.filter fun e => e.1 ≠ k

/-- Putting a value under a key adds that key, and no other. -/
theorem mem_keys_put {k l : κ} {v : α} {entries : List (κ × α)} :
    l ∈ (put k v entries).map Prod.fst ↔ l = k ∨ l ∈ entries.map Prod.fst := by
  induction entries with
  | nil => simp [put]
  | cons e rest ih =>
    obtain ⟨m, w⟩ := e
    by_cases h : m = k
    · simp [put, h]
    · simp only [put, h, if_false, List.map_cons, List.mem_cons, ih]
      grind

/-- A table that has every key once has so after a value has been put into it. -/
theorem distinct_put {k : κ} {v : α} {entries : List (κ × α)}
    (h : (entries.map Prod.fst).Nodup) : ((put k v entries).map Prod.fst).Nodup := by
  induction entries with
  | nil => simp [put]
  | cons e rest ih =>
    obtain ⟨m, w⟩ := e
    simp only [List.map_cons, List.nodup_cons] at h
    by_cases hk : m = k
    · subst hk
      simpa only [put, if_true, List.map_cons, List.nodup_cons] using h
    · simp only [put, hk, if_false, List.map_cons, List.nodup_cons, mem_keys_put]
      exact ⟨by grind, ih h.2⟩

/-- A table that has every key once has so after a key has been dropped. -/
theorem distinct_drop {k : κ} {entries : List (κ × α)}
    (h : (entries.map Prod.fst).Nodup) : ((drop k entries).map Prod.fst).Nodup :=
  (List.filter_sublist.map Prod.fst).nodup h

/-- The table without entries. -/
def empty : Table κ α := ⟨[], by simp⟩

/-- The value of a key. -/
def get? (t : Table κ α) (k : κ) : Option α := find? k t.entries

/-- Whether a key has a value. -/
def contains (t : Table κ α) (k : κ) : Bool := (t.get? k).isSome

/-- The table in which a key has a value, whether it had one before or not. -/
def insert (t : Table κ α) (k : κ) (v : α) : Table κ α :=
  ⟨put k v t.entries, distinct_put t.distinct⟩

/-- The table without a key. -/
def erase (t : Table κ α) (k : κ) : Table κ α := ⟨drop k t.entries, distinct_drop t.distinct⟩

/-- The keys, in order. -/
def keys (t : Table κ α) : List κ := t.entries.map Prod.fst

/-- The values, in the order of their keys. -/
def values (t : Table κ α) : List α := t.entries.map Prod.snd

/-- The number of keys. -/
def size (t : Table κ α) : Nat := t.entries.length

/-- The table of these pairs, the last value of a repeated key counting. -/
def ofList (pairs : List (κ × α)) : Table κ α :=
  pairs.foldl (fun t pair => t.insert pair.1 pair.2) empty

/-- The table with every value replaced by its image. -/
def map (f : α → β) (t : Table κ α) : Table κ β :=
  ⟨t.entries.map fun e => (e.1, f e.2), by simpa [Function.comp_def] using t.distinct⟩

/-- After a value has been put under a key, it is found there, and everywhere else what was there
before. -/
theorem find?_put {k l : κ} {v : α} {entries : List (κ × α)} :
    find? l (put k v entries) = if l = k then some v else find? l entries := by
  induction entries with
  | nil => grind [put, find?]
  | cons e rest ih => grind [put, find?]

/-- After a key has been dropped, nothing is found under it, and everywhere else what was there
before. -/
theorem find?_drop {k l : κ} {entries : List (κ × α)} :
    find? l (drop k entries) = if l = k then none else find? l entries := by
  induction entries with
  | nil => grind [drop, find?]
  | cons e rest ih => grind [drop, find?]

/-- Nothing is found in the empty table. -/
@[simp] theorem get?_empty {k : κ} : (empty : Table κ α).get? k = none := rfl

/-- What is found after an insertion: the new value under its key, and the old ones elsewhere. -/
theorem get?_insert {t : Table κ α} {k l : κ} {v : α} :
    (t.insert k v).get? l = if l = k then some v else t.get? l := find?_put

/-- What is found after a deletion: nothing under the key, and the old values elsewhere. -/
theorem get?_erase {t : Table κ α} {k l : κ} :
    (t.erase k).get? l = if l = k then none else t.get? l := find?_drop

end Table

end Rejoinder
