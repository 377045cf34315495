import Mathlib
import Rejoinder.Text.Words

/-!
# Tokens of a message

The pieces of a text between separators (`Text.fields`) hold everything in it but the separators.

A message is read as the list of its tokens, the pieces between single spaces (`Text.tokens`). A
token may be empty, where two spaces meet or one stands at an end. Putting the tokens together with
single spaces gives the message again, and a list of one or more texts without spaces is the list of
tokens of the message that it makes up.

Behind some tokens a message goes on with a space before every token that is left, and before others
it begins with a space behind every token that comes first; `Text.led` and `Text.trailed` put the
spaces there.
-/

set_option autoImplicit false

namespace Rejoinder.Text

/-! ## Pieces -/

section Fields

variable {separates : Char → Bool} {t v w : Text} {vs ws : List Text}

/-- Every text has a field, which may be empty. -/
theorem fields_ne_nil : fields separates t ≠ [] := by
  fun_cases fields <;> simp_all

/-- The first piece begins with what stands before the first separator. -/
theorem fields_cons {c : Char} (hc : separates c = false) (h : fields separates t = w :: ws) :
    fields separates (c :: t) = (c :: w) :: ws := by
  rw [fields, hc, if_neg (by simp), h]

/-- Characters that do not separate belong to the first field of what follows them. -/
theorem fields_append (hw : ∀ c ∈ w, separates c = false) (h : fields separates t = v :: vs) :
    fields separates (w ++ t) = (w ++ v) :: vs := by
  induction w with
  | nil => exact h
  | cons c w ih =>
    obtain ⟨hc, hw⟩ := List.forall_mem_cons.mp hw
    exact fields_cons hc (ih hw)

/-- A separator ends the pieces before it, and what is behind it has pieces of its own. -/
theorem fields_append_separator {c : Char} (hc : separates c = true) (t u : Text) :
    fields separates (t ++ c :: u) = fields separates t ++ fields separates u := by
  induction t with
  | nil => simp [fields, hc]
  | cons d t ih =>
    rw [List.cons_append]
    cases hd : separates d with
    | true => rw [fields, hd, if_pos rfl, ih, fields, hd, if_pos rfl, List.cons_append]
    | false =>
      obtain ⟨w, ws, hws⟩ := List.exists_cons_of_ne_nil (fields_ne_nil (t := t))
      rw [hws, List.cons_append] at ih
      rw [fields_cons hd ih, fields_cons hd hws, List.cons_append]

/-- Where two classes of separators agree on the characters of a text, it has the same pieces. -/
theorem fields_congr {separates' : Char → Bool} (h : ∀ c ∈ t, separates c = separates' c) :
    fields separates t = fields separates' t := by
  induction t with
  | nil => rfl
  | cons c t ih =>
    obtain ⟨hc, ht⟩ := List.forall_mem_cons.mp h
    rw [fields, fields, hc, ih ht]

/-- Only separators are in no piece. -/
theorem exists_mem_fields {c : Char} (hc : separates c = false) (h : c ∈ t) :
    ∃ w ∈ fields separates t, c ∈ w := by
  induction t with
  | nil => simp at h
  | cons d t ih =>
    cases hd : separates d with
    | true =>
      rcases List.mem_cons.mp h with rfl | h
      · simp [hc] at hd
      · obtain ⟨w, hw, hmem⟩ := ih h
        exact ⟨w, by simp [fields, hd, hw], hmem⟩
    | false =>
      obtain ⟨w, ws, hws⟩ := List.exists_cons_of_ne_nil (fields_ne_nil (t := t))
      rw [fields_cons hd hws]
      rcases List.mem_cons.mp h with rfl | h
      · exact ⟨c :: w, List.mem_cons_self, List.mem_cons_self⟩
      · obtain ⟨v, hv, hmem⟩ := ih h
        rw [hws] at hv
        rcases List.mem_cons.mp hv with rfl | hv
        · exact ⟨d :: v, List.mem_cons_self, List.mem_cons_of_mem _ hmem⟩
        · exact ⟨v, List.mem_cons_of_mem _ hv, hmem⟩

/-- What is in a piece is in the text, and it is no separator. -/
theorem of_mem_fields {c : Char} (hw : w ∈ fields separates t) (hc : c ∈ w) :
    c ∈ t ∧ separates c = false := by
  induction t generalizing w with
  | nil =>
    obtain rfl := List.mem_singleton.mp hw
    simp at hc
  | cons d t ih =>
    cases hd : separates d with
    | true =>
      rw [fields, hd, if_pos rfl] at hw
      rcases List.mem_cons.mp hw with rfl | hw
      · simp at hc
      · exact ⟨List.mem_cons_of_mem _ (ih hw hc).1, (ih hw hc).2⟩
    | false =>
      obtain ⟨v, vs, hvs⟩ := List.exists_cons_of_ne_nil (fields_ne_nil (t := t))
      rw [fields_cons hd hvs] at hw
      rw [hvs] at ih
      rcases List.mem_cons.mp hw with rfl | hw
      · rcases List.mem_cons.mp hc with rfl | hc
        · exact ⟨List.mem_cons_self, hd⟩
        · have hin := ih List.mem_cons_self hc
          exact ⟨List.mem_cons_of_mem _ hin.1, hin.2⟩
      · have hin := ih (List.mem_cons_of_mem _ hw) hc
        exact ⟨List.mem_cons_of_mem _ hin.1, hin.2⟩

end Fields

/-! ## Tokens -/

/-- The pieces of a message between its spaces. -/
def tokens (t : Text) : List Text := fields (· == ' ') t

/-- No text of the list has a space. -/
def SpaceFree (ws : List Text) : Prop := ∀ w ∈ ws, ' ' ∉ w

/-- Tokens with a space before each of them. -/
def led (ws : List Text) : Text := ws.flatMap fun w => ' ' :: w

/-- Tokens with a space behind each of them. -/
def trailed (ws : List Text) : Text := ws.flatMap fun w => w ++ [' ']

/-- Words that are put together are the first one and the others with a space before each. -/
theorem unwords_cons (w : Text) (ws : List Text) : unwords (w :: ws) = w ++ led ws := rfl

/-- A single word is put together as it is. -/
@[simp] theorem unwords_singleton (w : Text) : unwords [w] = w := by
  rw [unwords_cons, led, List.flatMap_nil, List.append_nil]

/-- No words lead to the empty text. -/
@[simp] theorem led_nil : led [] = [] := rfl

/-- The first of some words with a space before each. -/
theorem led_cons (w : Text) (ws : List Text) : led (w :: ws) = ' ' :: (w ++ led ws) := rfl

/-- No words with spaces behind them are the empty text. -/
@[simp] theorem trailed_nil : trailed [] = [] := rfl

/-- The first of some words with a space behind each. -/
theorem trailed_cons (w : Text) (ws : List Text) :
    trailed (w :: ws) = w ++ ' ' :: trailed ws := by
  simp [trailed]

/-- Words with a space before each can be put together in two parts. -/
theorem led_append (vs ws : List Text) : led (vs ++ ws) = led vs ++ led ws :=
  List.flatMap_append

/-- Putting texts together adds only spaces. -/
theorem mem_of_mem_unwords {c : Char} {ws : List Text} (h : c ∈ unwords ws) :
    c = ' ' ∨ ∃ w ∈ ws, c ∈ w := by
  cases ws with
  | nil => simp [unwords, joinWith] at h
  | cons w ws =>
    simp only [unwords_cons, led, List.mem_append, List.mem_flatMap, List.mem_cons] at h
    rcases h with h | ⟨v, hv, rfl | h⟩
    · exact .inr ⟨w, List.mem_cons_self, h⟩
    · exact .inl rfl
    · exact .inr ⟨v, List.mem_cons_of_mem _ hv, h⟩

/-- Tokens behind others begin with a space. -/
theorem led_eq_of_ne_nil {ws : List Text} (h : ws ≠ []) : led ws = ' ' :: unwords ws := by
  obtain ⟨w, ws, rfl⟩ := List.exists_cons_of_ne_nil h
  rw [led_cons, unwords_cons]

/-- Words that are put together may be divided behind any of them; the second part begins with a
space. -/
theorem unwords_append {vs : List Text} (h : vs ≠ []) (ws : List Text) :
    unwords (vs ++ ws) = unwords vs ++ led ws := by
  obtain ⟨v, vs, rfl⟩ := List.exists_cons_of_ne_nil h
  rw [List.cons_append, unwords_cons, unwords_cons, led_append, List.append_assoc]

/-- Two parts that are not empty are put together with a space in between. -/
theorem unwords_append_of_ne_nil {vs ws : List Text} (hv : vs ≠ []) (hw : ws ≠ []) :
    unwords (vs ++ ws) = unwords vs ++ ' ' :: unwords ws := by
  rw [unwords_append hv, led_eq_of_ne_nil hw]

/-- Words with a space behind each are the words put together and one more space. -/
theorem trailed_eq_of_ne_nil {ws : List Text} (h : ws ≠ []) : trailed ws = unwords ws ++ [' '] := by
  induction ws with
  | nil => exact absurd rfl h
  | cons w ws ih =>
    rw [trailed_cons, unwords_cons]
    by_cases hws : ws = []
    · subst hws
      simp
    · rw [ih hws, led_eq_of_ne_nil hws]
      simp

/-- Words with a space behind each lead up to the words that follow. -/
theorem trailed_append_unwords (vs : List Text) {ws : List Text} (h : ws ≠ []) :
    trailed vs ++ unwords ws = unwords (vs ++ ws) := by
  by_cases hvs : vs = []
  · subst hvs
    rfl
  · rw [trailed_eq_of_ne_nil hvs, unwords_append_of_ne_nil hvs h, List.append_assoc]
    rfl

/-- Words without spaces stay so when they are put behind each other. -/
theorem SpaceFree.append {vs ws : List Text} (hv : SpaceFree vs) (hw : SpaceFree ws) :
    SpaceFree (vs ++ ws) := by
  intro w h
  rcases List.mem_append.mp h with h | h
  · exact hv w h
  · exact hw w h

/-- Words are without spaces exactly if both parts of them are. -/
theorem spaceFree_append {vs ws : List Text} :
    SpaceFree (vs ++ ws) ↔ SpaceFree vs ∧ SpaceFree ws := by
  constructor
  · intro h
    exact ⟨fun w hw => h w (List.mem_append_left _ hw),
      fun w hw => h w (List.mem_append_right _ hw)⟩
  · rintro ⟨hv, hw⟩
    exact hv.append hw

/-- A space at the beginning ends an empty token. -/
theorem tokens_space (t : Text) : tokens (' ' :: t) = [] :: tokens t := rfl

/-- Every text has a token, which may be empty. -/
theorem tokens_ne_nil (t : Text) : tokens t ≠ [] := fields_ne_nil

/-- A character that is no space belongs to the first token of what follows it. -/
theorem tokens_cons {c : Char} (hc : c ≠ ' ') {t w : Text} {ws : List Text}
    (h : tokens t = w :: ws) : tokens (c :: t) = (c :: w) :: ws :=
  fields_cons (by simpa using hc) h

/-- The tokens of a message make it up. -/
theorem unwords_tokens (t : Text) : unwords (tokens t) = t := by
  induction t with
  | nil => rfl
  | cons c t ih =>
    by_cases hc : c = ' '
    · subst hc
      rw [tokens_space, unwords_cons, led_eq_of_ne_nil (tokens_ne_nil t), ih, List.nil_append]
    · obtain ⟨w, ws, hws⟩ := List.exists_cons_of_ne_nil (tokens_ne_nil t)
      rw [tokens_cons hc hws, unwords_cons, List.cons_append, ← unwords_cons, ← hws, ih]

/-- Tokens have no spaces in them. -/
theorem spaceFree_tokens (t : Text) : SpaceFree (tokens t) := by
  intro w hw hspace
  simpa using (of_mem_fields hw hspace).2

/-- A word without spaces belongs to the first token of what follows it. -/
theorem tokens_append {w : Text} (hw : ' ' ∉ w) {t v : Text} {vs : List Text}
    (h : tokens t = v :: vs) : tokens (w ++ t) = (w ++ v) :: vs := by
  refine fields_append (fun c hc => ?_) h
  simpa using ne_of_mem_of_not_mem hc hw

/-- A word with others behind it, each after a space, is cut into these words. -/
theorem tokens_append_led {w : Text} (hw : ' ' ∉ w) {ws : List Text} (hws : SpaceFree ws) :
    tokens (w ++ led ws) = w :: ws := by
  induction ws generalizing w with
  | nil =>
    have hend : tokens [] = [[]] := rfl
    rw [led_nil, tokens_append hw hend, List.append_nil]
  | cons v ws ih =>
    obtain ⟨hv, hws⟩ := List.forall_mem_cons.mp hws
    have hrest : tokens (' ' :: (v ++ led ws)) = [] :: v :: ws := by
      rw [tokens_space, ih hv hws]
    rw [led_cons, tokens_append hw hrest, List.append_nil]

/-- One or more texts without spaces are the tokens of what they make up. -/
theorem tokens_unwords {ws : List Text} (hne : ws ≠ []) (h : SpaceFree ws) :
    tokens (unwords ws) = ws := by
  obtain ⟨w, ws, rfl⟩ := List.exists_cons_of_ne_nil hne
  obtain ⟨hw, hws⟩ := List.forall_mem_cons.mp h
  rw [unwords_cons, tokens_append_led hw hws]

/-- Texts that are put together keep the tokens that each of them has. -/
theorem tokens_unwords_eq_flatMap {ts : List Text} (hne : ts ≠ []) :
    tokens (unwords ts) = ts.flatMap tokens := by
  induction ts with
  | nil => exact absurd rfl hne
  | cons t ts ih =>
    rw [unwords_cons, List.flatMap_cons]
    by_cases hts : ts = []
    · subst hts
      simp
    · rw [led_eq_of_ne_nil hts, ← ih hts]
      exact fields_append_separator (by simp) t (unwords ts)

end Rejoinder.Text
