import Mathlib
import Rejoinder.Proofs.Pattern.Groups
import Rejoinder.Proofs.Regex.Captured
import Rejoinder.Proofs.Target.Layout

/-!
# Normalizing what has been normalized

Without substitutions a normalized text is made of spaces, and of letters and numbers that are in
lower case already (`Text.Normal`). When such a text is normalized again, the spaces of its empty
tokens are lost and its other tokens stay as they are (`Text.Normal.groups_eq`). What a rule
captures is a part of the normalized message, so it can be the message of another reply, or stand
between blanks in one, and is read as the words that have been captured (`normalized_again`).
-/

set_option autoImplicit false

namespace Rejoinder

namespace Text

/-- The tokens of a text that are not empty. -/
def solidTokens (t : Text) : List Text := (tokens t).filter (!·.isEmpty)

/-- A text as normalization without substitutions leaves it. -/
def Normal (t : Text) : Prop :=
  ∀ c ∈ t, c = ' ' ∨ isAlphanumeric c = true ∧ lowercaseChar c = [c]

variable {t w : Text}

/-- A part of a normal text is normal. -/
theorem Normal.of_part {part : Text} (h : Normal t) (hpart : part <:+: t) : Normal part :=
  fun c hc => h c (hpart.subset hc)

/-- In a normal text there are no blanks but spaces. -/
theorem Normal.words_eq (h : Normal t) : words t = solidTokens t := by
  have hblank : ∀ c ∈ t, isBlank c = (c == ' ') := by
    intro c hc
    rcases h c hc with rfl | ⟨halnum, _⟩
    · decide
    · have hsolid := isBlank_of_isAlphanumeric halnum
      have hne : c ≠ ' ' := by
        rintro rfl
        exact absurd hsolid (by decide)
      rw [hsolid, beq_eq_false_iff_ne.mpr hne]
  rw [words, solidTokens, tokens, fields_congr hblank]

/-- A word of a normal text is left as it is. -/
theorem Normal.group_eq_self (h : Normal t) (hw : w ∈ words t) :
    Target.group Table.empty w = [w] := by
  have hword : ∀ c ∈ w, isAlphanumeric c = true ∧ lowercaseChar c = [c] := by
    intro c hc
    obtain ⟨hmem, hsolid⟩ := of_mem_words hw hc
    refine (h c hmem).resolve_left ?_
    rintro rfl
    exact absurd hsolid (by decide)
  rw [Target.group_empty, lowercase_of_lowercaseChar fun c hc => (hword c hc).2, Target.strip,
    List.filter_eq_self.mpr fun c hc => (hword c hc).1]

/-- In a normal text, every token that is not empty is a group of its own. -/
theorem Normal.groups_eq (h : Normal t) :
    (Target.ofText Table.empty t).groups = (solidTokens t).map ([·]) := by
  rw [Target.groups_ofText, List.map_congr_left fun w hw => h.group_eq_self hw, h.words_eq]

end Text

namespace Target

/-- Normalization without substitutions leads to a normal text. -/
theorem normal_normalized (message : Text) :
    Text.Normal (ofText Table.empty message).normalized := by
  intro c hc
  rw [normalized_empty] at hc
  refine (Text.mem_of_mem_unwords hc).imp_right ?_
  rintro ⟨_, htoken, hmem⟩
  obtain ⟨w, _, rfl⟩ := List.mem_map.mp htoken
  obtain ⟨hlower, halnum⟩ := List.mem_filter.mp hmem
  exact ⟨halnum, Text.lowercaseChar_of_mem_lowercase hlower⟩

/-- The tokens of a normalized text are those of its groups and empty ones. -/
theorem solidTokens_normalized (substitutions : Substitutions) (message : Text) :
    Text.solidTokens (ofText substitutions message).normalized =
      (ofText substitutions message).groups.flatten.filter (!·.isEmpty) := by
  by_cases hwords : (ofText substitutions message).words = []
  · have hgroups : (ofText substitutions message).groups = [] := by
      rw [words_ofText] at hwords
      rw [groups_ofText, hwords]
      rfl
    rw [normalized_eq_nil hwords, hgroups]
    rfl
  · rw [Text.solidTokens, tokens_normalized hwords, List.flatMap_def, List.filter_flatten,
      List.filter_flatten, List.map_map]
    congr 1
    refine List.map_congr_left fun group _ => ?_
    cases group <;> rfl

/-- Without substitutions there is one token for each word. -/
theorem map_singleton_flatten_groups (message : Text) :
    (ofText Table.empty message).groups.flatten.map ([·]) =
      (ofText Table.empty message).groups := by
  have hgroups : (ofText Table.empty message).groups =
      ((Text.words message).map fun w => strip (Text.lowercase w)).map ([·]) := by
    rw [groups_ofText, List.map_map]
    rfl
  rw [hgroups, ← List.flatMap_def, List.flatMap_singleton']

/-- The groups of a text that has been normalized twice are the tokens of the first time that are
not empty, each on its own. -/
theorem groups_normalized (message : Text) :
    (ofText Table.empty (ofText Table.empty message).normalized).groups =
      ((ofText Table.empty message).groups.flatten.filter (!·.isEmpty)).map ([·]) := by
  rw [(normal_normalized message).groups_eq, solidTokens_normalized]

end Target

/-! ## Captured words -/

/-- A group is there before a name is added, or it is what has been captured under the name. -/
theorem Rule.captured_of_get?_addGroup {marks : List Regex.Mark} {groups : Groups} {name : String}
    {number : Nat} {text : String} (h : (addGroup marks groups name).get? number = some text) :
    groups.get? number = some text ∨ Regex.captured? marks name = some text.toList := by
  rw [addGroup] at h
  split at h
  · rename_i part _ hpart
    rw [Groups.get?_insert] at h
    split at h
    · obtain rfl := Option.some.inj h
      rw [hpart, String.toList_ofList]
      exact .inr rfl
    · exact .inl h
  · exact .inl h

/-- The text of a group is what its name has captured. -/
theorem Rule.captured_of_get?_groupsOf {names : List String} {marks : List Regex.Mark}
    {number : Nat} {text : String} (h : (groupsOf names marks).get? number = some text) :
    ∃ name, Regex.captured? marks name = some text.toList := by
  suffices hfold : ∀ groups : Groups,
      (names.foldl (addGroup marks) groups).get? number = some text →
        groups.get? number = some text ∨ ∃ name, Regex.captured? marks name = some text.toList from
    (hfold [] h).resolve_left (by simp [Groups.get?])
  clear h
  induction names with
  | nil => exact fun groups h => .inl h
  | cons name names ih =>
    intro groups h
    rcases ih _ h with hadded | hcaptured
    · exact (captured_of_get?_addGroup hadded).imp_right fun hname => ⟨name, hname⟩
    · exact .inr hcaptured

/-- The groups of a match are parts of the message. -/
theorem Rule.isInfix_of_match? {r : Rule} {message : Text} {previous : Option Text}
    {groups : Groups} {number : Nat} {text : String}
    (h : r.match? message previous = some groups) (htext : groups.get? number = some text) :
    text.toList <:+: message := by
  obtain ⟨m, _, hmatch⟩ := Option.bind_eq_some_iff.mp h
  split at hmatch
  · obtain ⟨marks, hmarks, hgroups⟩ := Option.bind_eq_some_iff.mp hmatch
    obtain rfl := Option.some.inj hgroups
    obtain ⟨name, hcaptured⟩ := captured_of_get?_groupsOf htext
    exact Regex.isInfix_of_captured? hmarks hcaptured
  · simp at hmatch

/-- Without substitutions, a normalized message that is normalized again keeps exactly its tokens
that are not empty, each one as the group of a word of its own. So it stays as it is if it has no
empty token. The same goes for what a rule captures from it, both as a message of its own and in a
message in which it stands between blanks. -/
theorem Target.normalized_again (message : Text) :
    (ofText Table.empty (ofText Table.empty message).normalized).groups =
      ((ofText Table.empty message).groups.flatten.filter (!·.isEmpty)).map ([·]) ∧
    ((∀ token ∈ (ofText Table.empty message).groups.flatten, token ≠ []) →
      (ofText Table.empty (ofText Table.empty message).normalized).groups =
        (ofText Table.empty message).groups ∧
      (ofText Table.empty (ofText Table.empty message).normalized).normalized =
        (ofText Table.empty message).normalized) ∧
    ∀ (r : Rule) previous groups number text,
      r.match? (ofText Table.empty message).normalized previous = some groups →
      groups.get? number = some text →
      ∀ before behind, (∀ c ∈ before.getLast?, Text.isBlank c = true) →
        (∀ c ∈ behind.head?, Text.isBlank c = true) →
        (ofText Table.empty (before ++ (text.toList ++ behind))).groups =
          (ofText Table.empty before).groups ++ ((Text.solidTokens text.toList).map ([·]) ++
            (ofText Table.empty behind).groups) := by
  refine ⟨groups_normalized message, ?_, ?_⟩
  · intro hsolid
    have hgroups : (ofText Table.empty (ofText Table.empty message).normalized).groups =
        (ofText Table.empty message).groups := by
      rw [groups_normalized, List.filter_eq_self.mpr fun token htoken => ?_,
        map_singleton_flatten_groups]
      simpa using hsolid token htoken
    exact ⟨hgroups, by rw [normalized, hgroups, normalized]⟩
  · intro r previous groups number text hmatch htext before behind hbefore hbehind
    have hnormal := (normal_normalized message).of_part (Rule.isInfix_of_match? hmatch htext)
    rw [groups_append Table.empty (.inl hbefore), groups_append Table.empty (.inr hbehind),
      hnormal.groups_eq]

/-- The empty token between the words is lost when the text comes back. -/
example :
    let t := Target.ofText Table.empty "Well -- it's late".toList
    t.normalized = "well  its late".toList ∧
      (Target.ofText Table.empty t.normalized).normalized = "well its late".toList := by
  decide +kernel

end Rejoinder
