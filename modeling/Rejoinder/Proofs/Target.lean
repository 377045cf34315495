import Mathlib
import Rejoinder.Proofs.Text.Lowercase
import Rejoinder.Proofs.Text.Words
import Rejoinder.Target

/-!
# What normalization leaves

A normalized message holds letters, numbers and spaces. Without substitutions its tokens are the
words of the message in lower case, without whatever is neither a letter nor a number, and there are
no title case letters in it (`isTitlecase_of_mem_normalize`). So a literal word that has a title
case letter is changed by normalization, and every other literal word is left as it is
(`Target.group_eq_self_iff`).
-/

set_option autoImplicit false

namespace Rejoinder

/-! ## Normalized messages -/

namespace Target

variable {w : Text}

/-- Nothing is stripped off a word of letters and numbers. -/
theorem strip_eq_self (h : ∀ c ∈ w, Token.isWordChar c = true) : strip w = w := by
  refine List.filter_eq_self.mpr fun c hc => ?_
  have hword := h c hc
  rw [Token.isWordChar, Bool.and_eq_true] at hword
  exact hword.1

/-- Without substitutions a word stands for itself, in lower case and stripped. -/
theorem group_empty (w : Text) : group Table.empty w = [strip (Text.lowercase w)] := rfl

/-- A literal word is left as it is exactly if it has no title case letter. -/
theorem group_eq_self_iff (h : Token.IsWord w) :
    group Table.empty w = [w] ↔ ∀ c ∈ w, Text.isTitlecase c = false := by
  rw [group_empty, List.singleton_inj]
  constructor
  · intro heq c hc
    rw [← heq] at hc
    exact Text.isTitlecase_of_mem_lowercase (List.mem_of_mem_filter hc)
  · intro htitle
    rw [Text.lowercase_eq_self h.2 htitle, strip_eq_self h.2]

/-- Without substitutions every word of a message becomes one token. -/
theorem normalized_empty (message : Text) :
    (ofText Table.empty message).normalized =
      Text.unwords ((Text.words message).map fun w => strip (Text.lowercase w)) := by
  rw [ofText, normalized, List.map_map]
  congr 1
  refine List.map_congr_left fun w _ => ?_
  rw [Function.comp_apply, group_empty, Text.unwords_singleton]

end Target

/-- Without substitutions a text is normalized word by word. -/
theorem normalize_empty (message : String) :
    normalize Table.empty message =
      Text.unwords ((Text.words message.toList).map fun w => Target.strip (Text.lowercase w)) :=
  Target.normalized_empty message.toList

/-- If normalization leaves the words of a message as they are, they are its tokens. -/
theorem tokens_normalize_empty {message : String} (hne : Text.words message.toList ≠ [])
    (h : ∀ w ∈ Text.words message.toList, Target.group Table.empty w = [w]) :
    Text.tokens (normalize Table.empty message) = Text.words message.toList := by
  have hwords : (Text.words message.toList).map (fun w => Target.strip (Text.lowercase w)) =
      Text.words message.toList := by
    rw [List.map_congr_left fun w hw => List.singleton_inj.mp (h w hw), List.map_id']
  rw [normalize_empty, hwords]
  refine Text.tokens_unwords hne fun w hw hspace => ?_
  exact absurd (Text.of_mem_words hw hspace).2 (by decide)

variable {substitutions : Substitutions} {message : String} {c : Char}

/-- A normalized message holds nothing but letters, numbers and spaces. -/
theorem eq_or_isAlphanumeric_of_mem_normalize (h : c ∈ normalize substitutions message) :
    c = ' ' ∨ Text.isAlphanumeric c = true := by
  rcases Text.mem_of_mem_unwords h with hspace | ⟨_, htext, h⟩
  · exact .inl hspace
  · obtain ⟨group, hgroup, rfl⟩ := List.mem_map.mp htext
    obtain ⟨word, _, rfl⟩ := List.mem_map.mp hgroup
    rcases Text.mem_of_mem_unwords h with hspace | ⟨_, hw, h⟩
    · exact .inl hspace
    · obtain ⟨v, _, rfl⟩ := List.mem_map.mp hw
      exact .inr (List.of_mem_filter h)

/-- A normalized text has no line feed. -/
theorem newline_not_mem_normalize : '\n' ∉ normalize substitutions message := by
  intro h
  rcases eq_or_isAlphanumeric_of_mem_normalize h with h | h
  · exact absurd h (by decide)
  · exact absurd h (by decide +kernel)

/-- Without substitutions no title case letter is left in a normalized message. -/
theorem isTitlecase_of_mem_normalize (h : c ∈ normalize Table.empty message) :
    Text.isTitlecase c = false := by
  rw [normalize_empty] at h
  rcases Text.mem_of_mem_unwords h with rfl | ⟨_, hw, h⟩
  · decide
  · obtain ⟨w, _, rfl⟩ := List.mem_map.mp hw
    exact Text.isTitlecase_of_mem_lowercase (List.mem_of_mem_filter h)

end Rejoinder
