import Rejoinder.Topic

/-!
# The index of a topic

A topic finds the rule that has a pair of patterns by an index that maps such pairs to places. The
index agrees with the rules (`Indexed`) if it maps every pair to the place of the first rule that
has it. In such a topic a rule can be found by going through the rules (`Indexed.find?_eq`). So what
registering does can be said without the index (`Indexed.insert_of_new`, `Indexed.insert_of_same`
and `Indexed.insert_of_conflict`), and registering keeps the agreement (`Indexed.append`).
-/

set_option autoImplicit false

namespace Rejoinder

namespace Topic

/-- The index maps every pair of patterns to the place of the first rule that has it. -/
def Indexed (t : Topic) : Prop :=
  ∀ key, t.index.get? key = t.rules.findIdx? fun r => r.key = key

variable {t : Topic}

/-- The index of a new topic is right, since there are no rules. -/
theorem indexed_new (name : String) : (new name).Indexed := fun _ => rfl

/-- The index finds what going through the rules would find. -/
theorem Indexed.find?_eq (h : t.Indexed) (key : RuleKey) :
    t.find? key = t.rules.find? fun r => r.key = key := by
  rw [find?, h key]
  cases hplace : t.rules.findIdx? fun r => r.key = key with
  | none =>
    rw [List.findIdx?_eq_none_iff] at hplace
    exact (List.find?_eq_none.mpr fun r hr => by simpa using hplace r hr).symm
  | some place =>
    rw [List.findIdx?_eq_some_iff_getElem] at hplace
    obtain ⟨hlt, hkey, hfirst⟩ := hplace
    have hfound : t.rules.find? (fun r => r.key = key) = some t.rules[place] :=
      List.find?_eq_some_iff_getElem.mpr
        ⟨hkey, place, hlt, rfl, fun j hj => by simpa using hfirst j hj⟩
    rw [hfound]
    exact List.getElem?_eq_getElem hlt

/-- A rule whose pair of patterns is new goes behind the others. -/
theorem Indexed.insert_of_new (h : t.Indexed) {rule : Rule}
    (hnew : t.rules.find? (fun r => r.key = rule.key) = none) :
    t.insert rule =
      ({ t with rules := t.rules ++ [rule], index := t.index.insert rule.key t.rules.length },
        .added) := by
  rw [insert, h.find?_eq, hnew]

/-- A rule whose patterns and handler are there already changes nothing. -/
theorem Indexed.insert_of_same (h : t.Indexed) {rule existing : Rule}
    (hold : t.rules.find? (fun r => r.key = rule.key) = some existing)
    (hsame : existing.handler.identity = rule.handler.identity) :
    t.insert rule = (t, .alreadyPresent) := by
  rw [insert, h.find?_eq, hold]
  exact if_pos hsame

/-- A rule whose patterns are there with another handler changes nothing and is told of the other
rule. -/
theorem Indexed.insert_of_conflict (h : t.Indexed) {rule existing : Rule}
    (hold : t.rules.find? (fun r => r.key = rule.key) = some existing)
    (hother : existing.handler.identity ≠ rule.handler.identity) :
    t.insert rule = (t, .conflict existing.name) := by
  rw [insert, h.find?_eq, hold]
  exact if_neg hother

/-- The index stays in agreement when a rule with a new pair of patterns is registered. -/
theorem Indexed.append (h : t.Indexed) {rule : Rule}
    (hnew : t.rules.find? (fun r => r.key = rule.key) = none) :
    Indexed { t with
      rules := t.rules ++ [rule], index := t.index.insert rule.key t.rules.length } := by
  intro key
  have hnone : t.rules.findIdx? (fun r => r.key = rule.key) = none := by
    rw [List.findIdx?_eq_none_iff]
    intro r hr
    simpa using List.find?_eq_none.mp hnew r hr
  rw [Table.get?_insert, List.findIdx?_append]
  split
  · rename_i hkey
    subst hkey
    simp [hnone]
  · rename_i hkey
    have hother : rule.key ≠ key := fun heq => hkey heq.symm
    rw [h key]
    simp [hother]

end Topic

end Rejoinder
