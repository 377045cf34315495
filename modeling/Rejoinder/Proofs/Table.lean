import Mathlib.Data.List.Basic
import Rejoinder.Table

/-!
# Look-ups in changed tables

What mapping a table and putting a value into it do to its look-ups, to its keys, and to a sum over
its values (`foldr_values_insert`). A table is known by its keys in order and its look-ups
(`ext_get?`).
-/

set_option autoImplicit false

namespace Rejoinder

namespace Table

variable {κ α β γ : Type} [DecidableEq κ]

/-- In entries with distinct keys, a value is found exactly if it is there under its key. -/
theorem find?_eq_some_iff {k : κ} {v : α} {entries : List (κ × α)}
    (h : (entries.map Prod.fst).Nodup) : find? k entries = some v ↔ (k, v) ∈ entries := by
  induction entries with
  | nil => simp [find?]
  | cons e rest ih =>
    obtain ⟨l, w⟩ := e
    rw [List.map_cons, List.nodup_cons] at h
    rw [find?, List.mem_cons, ← ih h.2]
    split
    · rename_i hl
      subst hl
      have hnone : find? l rest ≠ some v := by
        intro hfound
        exact h.1 (List.mem_map.mpr ⟨(l, v), (ih h.2).mp hfound, rfl⟩)
      simp [hnone, eq_comm]
    · rename_i hl
      simp [Ne.symm hl]

/-- A table gives a value for a key exactly if it has the two as an entry. -/
theorem get?_eq_some_iff {t : Table κ α} {k : κ} {v : α} :
    t.get? k = some v ↔ (k, v) ∈ t.entries := find?_eq_some_iff t.distinct

/-- The keys of a table are those it contains. -/
theorem mem_keys_iff {t : Table κ α} {k : κ} : k ∈ t.keys ↔ t.contains k = true := by
  rw [keys, contains, Option.isSome_iff_exists, List.mem_map]
  constructor
  · rintro ⟨⟨l, v⟩, hmem, rfl⟩
    exact ⟨v, get?_eq_some_iff.mpr hmem⟩
  · rintro ⟨v, hv⟩
    exact ⟨(k, v), get?_eq_some_iff.mp hv, rfl⟩

/-- The entries of a table are its keys with what is found for them. -/
theorem entries_eq_filterMap_keys (t : Table κ α) :
    t.entries = t.keys.filterMap fun k => (t.get? k).map (Prod.mk k) := by
  have hentries : ∀ e ∈ t.entries, (t.get? e.1).map (Prod.mk e.1) = some e := by
    intro e he
    rw [get?_eq_some_iff.mpr he]
    rfl
  rw [keys, List.filterMap_map]
  exact List.filterMap_some.symm.trans (List.filterMap_congr hentries).symm

/-- Tables with the same keys in the same order and the same look-ups are the same. -/
theorem ext_get? {t u : Table κ α} (hkeys : t.keys = u.keys) (hget : ∀ k, t.get? k = u.get? k) :
    t = u := by
  have hentries : t.entries = u.entries := by
    rw [entries_eq_filterMap_keys t, entries_eq_filterMap_keys u, hkeys]
    simp only [hget]
  cases t
  cases u
  congr

/-- Changing all values changes the value that is found. -/
theorem find?_map (f : α → β) (k : κ) (entries : List (κ × α)) :
    find? k (entries.map fun e => (e.1, f e.2)) = (find? k entries).map f := by
  induction entries with
  | nil => rfl
  | cons e rest ih =>
    obtain ⟨l, v⟩ := e
    rw [List.map_cons, find?, find?, ih]
    split <;> rfl

/-- Changing all values of a table changes the value that it gives for a key. -/
@[simp] theorem get?_map (f : α → β) (t : Table κ α) (k : κ) :
    (t.map f).get? k = (t.get? k).map f := find?_map f k t.entries

/-- Changing all values of a table keeps its keys. -/
@[simp] theorem contains_map (f : α → β) (t : Table κ α) (k : κ) :
    (t.map f).contains k = t.contains k := by
  rw [contains, contains, get?_map, Option.isSome_map]

section Map

omit [DecidableEq κ]

/-- Changing all values of a table keeps its keys in their order. -/
@[simp] theorem keys_map (f : α → β) (t : Table κ α) : (t.map f).keys = t.keys := by
  rw [keys, keys, map, List.map_map]
  rfl

/-- The values of a changed table are the changed values, in their order. -/
@[simp] theorem values_map (f : α → β) (t : Table κ α) : (t.map f).values = t.values.map f := by
  rw [values, values, map, List.map_map, List.map_map]
  rfl

/-- Changing all values of a table twice is one change. -/
theorem map_map (f : α → β) (g : β → γ) (t : Table κ α) : (t.map f).map g = t.map (g ∘ f) := by
  simp only [map, List.map_map]
  rfl

end Map

/-- A table stays as it is if no value in it is changed. -/
theorem map_eq_self {f : α → α} {t : Table κ α} (h : ∀ k v, t.get? k = some v → f v = v) :
    t.map f = t := by
  apply ext_get? (keys_map f t)
  intro k
  rw [get?_map]
  cases hv : t.get? k with
  | none => rfl
  | some v => rw [Option.map_some, h k v hv]

/-- Changing the values after an insertion is the same as inserting the changed value. -/
theorem map_insert (f : α → β) (t : Table κ α) (k : κ) (v : α) :
    (t.insert k v).map f = (t.map f).insert k (f v) := by
  have hput : ∀ entries : List (κ × α), (put k v entries).map (fun e => (e.1, f e.2)) =
      put k (f v) (entries.map fun e => (e.1, f e.2)) := by
    intro entries
    induction entries with
    | nil => rfl
    | cons e rest ih => grind [put]
  simp only [insert, map, hput]

/-- Putting a value under a key that is there already keeps the keys in order. -/
theorem keys_insert_of_contains {t : Table κ α} {k : κ} {v : α} (h : t.contains k = true) :
    (t.insert k v).keys = t.keys := by
  have hput : ∀ entries : List (κ × α), k ∈ entries.map Prod.fst →
      (put k v entries).map Prod.fst = entries.map Prod.fst := by
    intro entries
    induction entries with
    | nil => simp
    | cons e rest ih => grind [put]
  exact hput t.entries (mem_keys_iff.mpr h)

/-- A table contains a key exactly if it gives a value for it. -/
theorem contains_iff {t : Table κ α} {k : κ} :
    t.contains k = true ↔ ∃ v, t.get? k = some v := Option.isSome_iff_exists

/-- After an insertion a table contains the new key and those from before. -/
theorem contains_insert {t : Table κ α} {k l : κ} {v : α} :
    (t.insert k v).contains l = true ↔ l = k ∨ t.contains l = true := by
  rw [contains, contains, get?_insert]
  split <;> simp_all

/-- Of two values that are put under one key, the second one counts. -/
theorem insert_insert (t : Table κ α) (k : κ) (v w : α) :
    (t.insert k v).insert k w = t.insert k w := by
  have hput : ∀ entries : List (κ × α), put k w (put k v entries) = put k w entries := by
    intro entries
    induction entries with
    | nil => simp [put]
    | cons e rest ih => grind [put]
  simp only [insert, hput]

/-- Putting a value into entries changes a sum over all values by the value that goes and the one
that comes. -/
theorem foldr_put (size : α → Nat) (k : κ) (v : α) (entries : List (κ × α)) :
    (((put k v entries).map Prod.snd).foldr (fun w n => size w + n) 0) +
        ((find? k entries).map size).getD 0 =
      ((entries.map Prod.snd).foldr (fun w n => size w + n) 0) + size v := by
  induction entries with
  | nil => simp [put, find?]
  | cons e rest ih =>
    obtain ⟨l, w⟩ := e
    rw [put, find?]
    split
    · simp
      omega
    · simp only [List.map_cons, List.foldr_cons]
      omega

/-- Putting a value changes a sum over all values by the value that goes and the one that comes. -/
theorem foldr_values_insert (size : α → Nat) (t : Table κ α) (k : κ) (v : α) :
    ((t.insert k v).values.foldr (fun w n => size w + n) 0) + ((t.get? k).map size).getD 0 =
      (t.values.foldr (fun w n => size w + n) 0) + size v := foldr_put size k v t.entries

end Table

end Rejoinder
