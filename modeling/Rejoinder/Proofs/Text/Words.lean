import Mathlib
import Rejoinder.Proofs.Text.Fields

/-!
# Words of a text

The words of a text are the texts that stand in it between blanks. There is one list of such texts
(`spaced_iff`), and a blank at which a text is cut divides the list (`words_append_blank`).
-/

set_option autoImplicit false

namespace Rejoinder

namespace Text

variable {t w : Text} {c : Char}

/-- A blank at the beginning of a text does not change its words. -/
theorem words_of_isBlank (hc : isBlank c = true) : words (c :: t) = words t := by
  simp [words, fields, hc]

/-- A word ends at the end of the text or before a blank. -/
theorem words_append (hne : w ≠ []) (hw : ∀ c ∈ w, isBlank c = false)
    (ht : ∀ c ∈ t.head?, isBlank c = true) : words (w ++ t) = w :: words t := by
  cases t with
  | nil =>
    have hend : fields isBlank [] = [[]] := rfl
    rw [words, fields_append hw hend]
    simp [words, fields, hne]
  | cons c t =>
    have hc : isBlank c = true := ht c rfl
    have hpiece : fields isBlank (c :: t) = [] :: fields isBlank t := by rw [fields, if_pos hc]
    rw [words_of_isBlank hc, words, fields_append hw hpiece]
    simp [words, hne]

/-- What is in a word is in the text, and it is no blank. -/
theorem of_mem_words (hw : w ∈ words t) (hc : c ∈ w) : c ∈ t ∧ isBlank c = false :=
  of_mem_fields (List.mem_of_mem_filter hw) hc

/-- Only blanks are in no word. -/
theorem exists_mem_words (hc : isBlank c = false) (h : c ∈ t) : ∃ w ∈ words t, c ∈ w := by
  obtain ⟨w, hw, hmem⟩ := exists_mem_fields hc h
  exact ⟨w, List.mem_filter.mpr ⟨hw, by simp [List.ne_nil_of_mem hmem]⟩, hmem⟩

/-- A blank stands in no word, so the words before it and behind it are all there are. -/
theorem words_append_blank (hc : isBlank c = true) (t u : Text) :
    words (t ++ c :: u) = words t ++ words u := by
  rw [words, fields_append_separator hc, List.filter_append, words, words]

/-- No word goes on into a text that begins with a blank, nor begins before it. -/
theorem words_append_of_head? {u : Text} (h : ∀ c ∈ u.head?, isBlank c = true) (t : Text) :
    words (t ++ u) = words t ++ words u := by
  cases u with
  | nil =>
    have hnone : words [] = [] := rfl
    rw [hnone, List.append_nil, List.append_nil]
  | cons c u =>
    have hc : isBlank c = true := h c rfl
    rw [words_append_blank hc, words_of_isBlank hc]

/-- A text that ends with a blank, or is empty, has words of its own, whatever follows it. -/
theorem words_append_of_getLast? {t : Text} (h : ∀ c ∈ t.getLast?, isBlank c = true) (u : Text) :
    words (t ++ u) = words t ++ words u := by
  rcases List.eq_nil_or_concat t with rfl | ⟨t, c, rfl⟩
  · rfl
  · have hc : isBlank c = true := h c (by simp)
    have hend : ∀ d ∈ ([c] : Text).head?, isBlank d = true := by simpa using hc
    rw [List.concat_eq_append, words_append_of_head? hend, words_of_isBlank hc,
      List.append_assoc, List.singleton_append, words_append_blank hc]
    exact congrArg (· ++ words u) (List.append_nil _).symm

/-- Blanks at the beginning of a text do not change its words. -/
theorem words_append_of_blanks {blanks : Text} (h : ∀ c ∈ blanks, isBlank c = true) (t : Text) :
    words (blanks ++ t) = words t := by
  induction blanks with
  | nil => rfl
  | cons c blanks ih =>
    obtain ⟨hc, hblanks⟩ := List.forall_mem_cons.mp h
    rw [List.cons_append, words_of_isBlank hc, ih hblanks]

/-- Some words stand in a text: none of them is empty or has a blank in it, there is a blank behind
each of them unless the text ends there, and there are only blanks besides. -/
inductive Spaced : Text → List Text → Prop
  | blank {t : Text} (blanks : ∀ c ∈ t, isBlank c = true) : Spaced t []
  | word {blanks w rest : Text} {ws : List Text} (hblanks : ∀ c ∈ blanks, isBlank c = true)
    (nonempty : w ≠ []) (solid : ∀ c ∈ w, isBlank c = false)
    (ends : ∀ c ∈ rest.head?, isBlank c = true) (others : Spaced rest ws) :
    Spaced (blanks ++ (w ++ rest)) (w :: ws)

/-- The words that stand in a text are the words of the text. -/
theorem Spaced.eq_words {ws : List Text} (h : Spaced t ws) : ws = words t := by
  induction h with
  | blank hblanks =>
    have hnone := words_append_of_blanks hblanks []
    rw [List.append_nil] at hnone
    rw [hnone]
    rfl
  | word hblanks hne hsolid hends _ ih =>
    rw [words_append_of_blanks hblanks, words_append hne hsolid hends, ← ih]

/-- A character is a blank before the first word, or the beginning of a word. -/
theorem Spaced.exists_cons {ws : List Text} (h : Spaced t ws) (c : Char) :
    ∃ ws', Spaced (c :: t) ws' := by
  cases hc : isBlank c with
  | true =>
    cases h with
    | blank hblanks => exact ⟨_, .blank (by simpa [hc] using hblanks)⟩
    | @word blanks _ _ _ hblanks hne hsolid hends hothers =>
      have hblanks' : ∀ d ∈ c :: blanks, isBlank d = true := by simpa [hc] using hblanks
      exact ⟨_, .word hblanks' hne hsolid hends hothers⟩
  | false =>
    have hnone : ∀ d ∈ ([] : Text), isBlank d = true := by simp
    have hone : ∀ d ∈ [c], isBlank d = false := by simp [hc]
    cases h with
    | blank hblanks =>
      have hends : ∀ d ∈ t.head?, isBlank d = true :=
        fun d hd => hblanks d (List.mem_of_mem_head? hd)
      exact ⟨_, .word hnone (List.cons_ne_nil c []) hone hends (.blank hblanks)⟩
    | @word blanks w rest ws hblanks hne hsolid hends hothers =>
      cases blanks with
      | nil =>
        have hsolid' : ∀ d ∈ c :: w, isBlank d = false := by simpa [hc] using hsolid
        exact ⟨_, .word hnone (List.cons_ne_nil c w) hsolid' hends hothers⟩
      | cons b blanks =>
        have hb : ∀ d ∈ (b :: blanks ++ (w ++ rest)).head?, isBlank d = true := by
          simpa using hblanks b List.mem_cons_self
        exact ⟨_, .word hnone (List.cons_ne_nil c []) hone hb
          (.word hblanks hne hsolid hends hothers)⟩

/-- The words of a text are the only ones that stand in it. -/
theorem spaced_iff {ws : List Text} : Spaced t ws ↔ ws = words t := by
  refine ⟨Spaced.eq_words, ?_⟩
  rintro rfl
  have hexists : ∃ ws, Spaced t ws := by
    induction t with
    | nil => exact ⟨[], .blank (by simp)⟩
    | cons c t ih =>
      obtain ⟨ws, hws⟩ := ih
      exact hws.exists_cons c
  obtain ⟨ws, hws⟩ := hexists
  rwa [← hws.eq_words]

end Text

end Rejoinder
