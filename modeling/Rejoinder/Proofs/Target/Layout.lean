import Mathlib
import Rejoinder.Proofs.Target

/-!
# How normalization lays out words

What has become of each word of a message can be read off the normalized text: cut at its spaces it
is one group behind another, and a group without tokens shows as one empty token
(`layout_recoverable`). A word is normalized without a look at the words around it, so a message cut
at a blank has the groups of its two sides (`groups_append_blank`).
-/

set_option autoImplicit false

namespace Rejoinder.Target

variable {substitutions : Substitutions} {message word token : Text} {group : List Text}

/-- The tokens of the normalized text that stand for one group. -/
def shown : List Text → List Text
  | [] => [[]]
  | token :: group => token :: group

/-- The words of a target are those of the message. -/
theorem words_ofText (substitutions : Substitutions) (message : Text) :
    (ofText substitutions message).words = Text.words message := rfl

/-- The groups of a target come from the words of the message, one from each. -/
theorem groups_ofText (substitutions : Substitutions) (message : Text) :
    (ofText substitutions message).groups =
      (Text.words message).map (Target.group substitutions) := rfl

/-- A token of a group consists of letters and numbers. -/
theorem isAlphanumeric_of_mem_group (h : token ∈ Target.group substitutions word) :
    ∀ c ∈ token, Text.isAlphanumeric c = true := by
  obtain ⟨_, _, rfl⟩ := List.mem_map.mp h
  exact fun c hc => List.of_mem_filter hc

/-- The tokens in the groups of a target consist of letters and numbers. -/
theorem isAlphanumeric_of_mem_groups (hgroup : group ∈ (ofText substitutions message).groups)
    (htoken : token ∈ group) : ∀ c ∈ token, Text.isAlphanumeric c = true := by
  obtain ⟨_, _, rfl⟩ := List.mem_map.mp hgroup
  exact isAlphanumeric_of_mem_group htoken

/-- No token can be taken for several. -/
theorem spaceFree_of_mem_groups (hgroup : group ∈ (ofText substitutions message).groups) :
    Text.SpaceFree group := by
  intro token htoken hspace
  exact absurd (isAlphanumeric_of_mem_groups hgroup htoken ' ' hspace) (by decide +kernel)

/-- The tokens of a group that is put together are those that it shows. -/
theorem tokens_unwords_group (h : Text.SpaceFree group) :
    Text.tokens (Text.unwords group) = shown group := by
  cases group with
  | nil => rfl
  | cons token group => exact Text.tokens_unwords (List.cons_ne_nil token group) h

/-- The tokens of a normalized text are those that the groups show, in order. -/
theorem tokens_normalized (hne : (ofText substitutions message).words ≠ []) :
    Text.tokens (ofText substitutions message).normalized =
      (ofText substitutions message).groups.flatMap shown := by
  have hgroups : (ofText substitutions message).groups.map Text.unwords ≠ [] := by
    simpa [groups_ofText, words_ofText] using hne
  rw [normalized, Text.tokens_unwords_eq_flatMap hgroups, List.flatMap_map]
  exact List.flatMap_congr fun group hgroup =>
    tokens_unwords_group (spaceFree_of_mem_groups hgroup)

/-- A message without words is normalized to the empty text. -/
theorem normalized_eq_nil (h : (ofText substitutions message).words = []) :
    (ofText substitutions message).normalized = [] := by
  rw [words_ofText] at h
  rw [normalized, groups_ofText, h]
  rfl

/-- A blank ends a group: what stands before it and what stands behind it have their groups apart.
-/
theorem groups_append_blank (substitutions : Substitutions) {c : Char}
    (hc : Text.isBlank c = true) (before behind : Text) :
    (ofText substitutions (before ++ c :: behind)).groups =
      (ofText substitutions before).groups ++ (ofText substitutions behind).groups := by
  simp only [groups_ofText, Text.words_append_blank hc, List.map_append]

/-- The same goes for a place beside a blank, and for the ends of the message. -/
theorem groups_append (substitutions : Substitutions) {before behind : Text}
    (h : (∀ c ∈ before.getLast?, Text.isBlank c = true) ∨
      ∀ c ∈ behind.head?, Text.isBlank c = true) :
    (ofText substitutions (before ++ behind)).groups =
      (ofText substitutions before).groups ++ (ofText substitutions behind).groups := by
  have hwords : Text.words (before ++ behind) = Text.words before ++ Text.words behind := by
    rcases h with h | h
    · exact Text.words_append_of_getLast? h behind
    · exact Text.words_append_of_head? h before
  simp only [groups_ofText, hwords, List.map_append]

/-- The words of a message are what stands in it between blanks, and there is one group for each of
them. A token has nothing but letters and numbers, so the spaces of the normalized text stand
between the tokens, where an empty group counts as an empty token, and a message without words is
empty. The groups of a message are those before any of its blanks and those behind it. -/
theorem layout_recoverable (substitutions : Substitutions) (message : Text) :
    (∀ ws, Text.Spaced message ws ↔ ws = (ofText substitutions message).words) ∧
    (ofText substitutions message).groups.length = (ofText substitutions message).words.length ∧
    (∀ group ∈ (ofText substitutions message).groups, ∀ token ∈ group, ∀ c ∈ token,
      Text.isAlphanumeric c = true) ∧
    ((ofText substitutions message).words ≠ [] →
      Text.tokens (ofText substitutions message).normalized =
        (ofText substitutions message).groups.flatMap shown) ∧
    ((ofText substitutions message).words = [] →
      (ofText substitutions message).normalized = []) ∧
    ∀ before c behind, Text.isBlank c = true → message = before ++ c :: behind →
      (ofText substitutions message).groups =
        (ofText substitutions before).groups ++ (ofText substitutions behind).groups := by
  refine ⟨fun _ => Text.spaced_iff, List.length_map .., fun group hgroup token htoken =>
    isAlphanumeric_of_mem_groups hgroup htoken, tokens_normalized, normalized_eq_nil, ?_⟩
  rintro before c behind hc rfl
  exact groups_append_blank substitutions hc before behind

end Rejoinder.Target
