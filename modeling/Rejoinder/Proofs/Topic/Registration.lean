import Rejoinder.Proofs.Topic.Build
import Rejoinder.Proofs.Topic.Index

/-!
# Registering rules

A topic changes when a rule is registered, when it is built, and when its alternates change. All
changes keep the index exact (`Exact`): it agrees with the rules, and no two rules have the same pair
of patterns. In a topic with an exact index, what comes of registering a rule is known from the rules
alone (`Exact.insert_eq_iff`), where `Registers` says it for a pair that is new, for one that is
registered with the same handler and for one that is registered with another handler.

No change takes a registered rule away, and none moves it or puts another one in its place: apart
from their compiled patterns, the rules of a topic begin with those that it had before
(`rules_prefix_after`). Together this is what holds of a topic after any changes
(`index_exact_after_changes`).
-/

set_option autoImplicit false

namespace Rejoinder

namespace Topic

/-- A change of a topic. -/
inductive Change
  | insert (rule : Rule)
  | build (g : Grammar)
  /-- Alternates are added, replaced or removed. -/
  | alternates (change : Alternates → Alternates)

/-- The topic after a change. -/
def Change.apply (t : Topic) : Change → Topic
  | .insert rule => (t.insert rule).1
  | .build g => t.build g
  | .alternates change => { t with alternates := change t.alternates }

/-- To add an alternate is one way to change the alternates. -/
example (t : Topic) (name value : String) :
    Change.apply t (.alternates fun table => table.insert name value) =
      t.addAlternate name value := rfl

/-- The topic after changes, one after the other. -/
def after (t : Topic) (changes : List Change) : Topic := changes.foldl Change.apply t

/-- The index agrees with the rules, and no two rules have the same pair of patterns. -/
structure Exact (t : Topic) : Prop where
  indexed : t.Indexed
  distinct : (t.rules.map Rule.key).Nodup

/-- What comes of registering a rule, for the topic and for the caller. -/
inductive Registers (t : Topic) (rule : Rule) : Topic × Registration → Prop
  | added : (∀ r ∈ t.rules, r.key ≠ rule.key) →
      Registers t rule
        ({ t with rules := t.rules ++ [rule], index := t.index.insert rule.key t.rules.length },
          .added)
  | alreadyPresent {r : Rule} : r ∈ t.rules → r.key = rule.key →
      r.handler.identity = rule.handler.identity → Registers t rule (t, .alreadyPresent)
  | conflict {r : Rule} : r ∈ t.rules → r.key = rule.key →
      r.handler.identity ≠ rule.handler.identity → Registers t rule (t, .conflict r.name)

variable {t : Topic} {rule r : Rule} {key : RuleKey} {place : Nat}

/-! ## What an exact index finds -/

/-- No rule is found for a pair of patterns exactly if no rule has it. -/
theorem find?_key_eq_none_iff :
    t.rules.find? (fun r => r.key = key) = none ↔ ∀ r ∈ t.rules, r.key ≠ key := by
  simp

/-- There is only one rule with a pair of patterns to be found. -/
theorem Exact.find?_key_eq_some_iff (h : t.Exact) :
    t.rules.find? (fun r => r.key = key) = some r ↔ r ∈ t.rules ∧ r.key = key := by
  constructor
  · intro hfind
    exact ⟨List.mem_of_find?_eq_some hfind, by simpa using List.find?_some hfind⟩
  · rintro ⟨hr, hkey⟩
    cases hfind : t.rules.find? fun r => r.key = key with
    | none => exact absurd hkey (find?_key_eq_none_iff.mp hfind r hr)
    | some s =>
      have hs : s.key = key := by simpa using List.find?_some hfind
      rw [List.inj_on_of_nodup_map h.distinct (List.mem_of_find?_eq_some hfind) hr
        (hs.trans hkey.symm)]

/-- The index maps the pair of every rule to the place of that rule, and it maps nothing else. -/
theorem Exact.get?_index_eq_some_iff (h : t.Exact) :
    t.index.get? key = some place ↔ ∃ r, t.rules[place]? = some r ∧ r.key = key := by
  rw [h.indexed key, List.findIdx?_eq_some_iff_getElem]
  constructor
  · rintro ⟨hlt, hkey, -⟩
    exact ⟨t.rules[place], List.getElem?_eq_getElem hlt, by simpa using hkey⟩
  · rintro ⟨r, hr, hkey⟩
    obtain ⟨hlt, rfl⟩ := List.getElem?_eq_some_iff.mp hr
    refine ⟨hlt, by simpa using hkey, fun j hj hjkey => ?_⟩
    -- The index holds the first place, but no other place has the same pair.
    have hkeys : t.rules[j].key = t.rules[place].key := by
      rw [hkey]
      simpa using hjkey
    have hsame : t.rules[j] = t.rules[place] :=
      List.inj_on_of_nodup_map h.distinct (List.getElem_mem _) (List.getElem_mem _) hkeys
    have hplace : j = place := h.distinct.of_map.getElem_inj_iff.mp hsame
    omega

/-- What comes of registering a rule is known from the rules. -/
theorem Exact.insert_eq_iff (h : t.Exact) {outcome : Topic × Registration} :
    t.insert rule = outcome ↔ t.Registers rule outcome := by
  constructor
  · rintro rfl
    cases hfind : t.rules.find? fun r => r.key = rule.key with
    | none =>
      rw [h.indexed.insert_of_new hfind]
      exact .added (find?_key_eq_none_iff.mp hfind)
    | some r =>
      obtain ⟨hr, hkey⟩ := h.find?_key_eq_some_iff.mp hfind
      by_cases hsame : r.handler.identity = rule.handler.identity
      · rw [h.indexed.insert_of_same hfind hsame]
        exact .alreadyPresent hr hkey hsame
      · rw [h.indexed.insert_of_conflict hfind hsame]
        exact .conflict hr hkey hsame
  · intro hregisters
    cases hregisters with
    | added hnew => exact h.indexed.insert_of_new (find?_key_eq_none_iff.mpr hnew)
    | alreadyPresent hr hkey hsame =>
      exact h.indexed.insert_of_same (h.find?_key_eq_some_iff.mpr ⟨hr, hkey⟩) hsame
    | conflict hr hkey hother =>
      exact h.indexed.insert_of_conflict (h.find?_key_eq_some_iff.mpr ⟨hr, hkey⟩) hother

/-! ## Changes keep the index exact -/

/-- The index of a new topic is exact. -/
theorem exact_new (name : String) : (new name).Exact := ⟨indexed_new name, .nil⟩

/-- Registering a rule keeps the index exact: it is added to both or to none of them. -/
theorem Exact.insert (h : t.Exact) (rule : Rule) : (t.insert rule).1.Exact := by
  have hregisters := h.insert_eq_iff.mp (Eq.refl (t.insert rule))
  generalize t.insert rule = outcome at hregisters
  cases hregisters with
  | added hnew =>
    refine ⟨h.indexed.append (find?_key_eq_none_iff.mpr hnew), ?_⟩
    rw [List.map_append, List.map_singleton, List.nodup_append]
    refine ⟨h.distinct, List.nodup_singleton _, ?_⟩
    intro k hk k' hk'
    obtain ⟨r, hr, rfl⟩ := List.mem_map.mp hk
    obtain rfl := List.mem_singleton.mp hk'
    exact hnew r hr
  | alreadyPresent => exact h
  | conflict => exact h

/-- Compiling the rules leaves their pairs of patterns where they are. -/
theorem Exact.build (h : t.Exact) (g : Grammar) : (t.build g).Exact := by
  have hrules : (t.build g).rules = t.rules.map (Rule.compile g t.alternates) := rfl
  constructor
  · intro key
    rw [hrules, List.findIdx?_map]
    exact h.indexed key
  · rw [hrules, List.map_map]
    exact h.distinct

/-- Every change of a topic keeps its index exact. -/
theorem Exact.apply (h : t.Exact) (change : Change) : (change.apply t).Exact := by
  cases change with
  | insert rule => exact h.insert rule
  | build g => exact h.build g
  | alternates change => exact ⟨h.indexed, h.distinct⟩

/-- The index stays exact through all changes. -/
theorem Exact.after (h : t.Exact) (changes : List Change) : (t.after changes).Exact := by
  induction changes generalizing t with
  | nil => exact h
  | cons change changes ih => exact ih (h.apply change)

/-! ## Changes keep the rules -/

/-- No change takes away a registered rule, or moves it, or puts another one in its place. -/
theorem rules_prefix_apply (t : Topic) (change : Change) :
    t.rules.map Rule.uncompiled <+: (change.apply t).rules.map Rule.uncompiled := by
  cases change with
  | insert rule =>
    simp only [Change.apply, Topic.insert]
    split
    · split
      · exact List.prefix_rfl
      · exact List.prefix_rfl
    · rw [List.map_append]
      exact List.prefix_append _ _
  | build g =>
    have hrules : (t.build g).rules.map Rule.uncompiled = t.rules.map Rule.uncompiled :=
      congrArg Topic.rules (unbuilt_build g t)
    simp only [Change.apply, hrules]
    exact List.prefix_rfl
  | alternates change => exact List.prefix_rfl

/-- Rules that are registered stay in their places, whatever changes follow. -/
theorem rules_prefix_after (t : Topic) (changes : List Change) :
    t.rules.map Rule.uncompiled <+: (t.after changes).rules.map Rule.uncompiled := by
  induction changes generalizing t with
  | nil => exact List.prefix_rfl
  | cons change changes ih => exact (rules_prefix_apply t change).trans (ih (change.apply t))

/-- A new topic after any changes. Its index maps the pairs of patterns of its rules to their places
and nothing else, no two rules have the same pair, registering a rule comes to what the rules say,
and further changes leave the rules where they are. -/
theorem index_exact_after_changes (name : String) (changes more : List Change) :
    (∀ key place, ((new name).after changes).index.get? key = some place ↔
        ∃ r, ((new name).after changes).rules[place]? = some r ∧ r.key = key) ∧
      (((new name).after changes).rules.map Rule.key).Nodup ∧
      (∀ rule outcome, ((new name).after changes).insert rule = outcome ↔
        ((new name).after changes).Registers rule outcome) ∧
      ((new name).after changes).rules.map Rule.uncompiled <+:
        ((new name).after (changes ++ more)).rules.map Rule.uncompiled := by
  have hexact := (exact_new name).after changes
  refine ⟨fun _ _ => hexact.get?_index_eq_some_iff, hexact.distinct,
    fun _ _ => hexact.insert_eq_iff, ?_⟩
  have happend : (new name).after (changes ++ more) = ((new name).after changes).after more :=
    List.foldl_append
  rw [happend]
  exact rules_prefix_after _ more

end Topic

end Rejoinder
