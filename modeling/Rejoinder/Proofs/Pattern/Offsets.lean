import Mathlib
import Rejoinder.Proofs.Pattern.Tiling

/-!
# Tokens at their offsets

`Token.Tiles` puts a text together from tokens and blanks, from its beginning to its end. Here the
text is given, and lexemes are compared with what stands in it at their offsets. They are laid out
in the text (`Token.LaidOut`) if their offsets strictly increase, the text reads a token at each of
them, whatever lies outside of the tokens is blank, no word touches another word, and every
reference goes on to the next character that ends references.

Being laid out behind some part of a text is kept by a blank and by a token in front
(`LaidOut.of_blank`, `LaidOut.of_token`), so the lexemes that tile a text are laid out in it. The
converse needs that an offset determines where a text is cut (`Text.append_inj_of_utf8Size`). So
scanning finds the one way in which tokens are laid out in a text, and it fails exactly if there is
none (`Token.scan_finds_layout`).
-/

set_option autoImplicit false

namespace Rejoinder

/-! ## Parts of a text -/

namespace Text

/-- The text reads a part from a byte offset on, which lies between two characters. -/
def ReadsAt (t : Text) (position : Nat) (part : Text) : Prop :=
  ∃ front back, t = front ++ part ++ back ∧ utf8Size front = position

/-- Between two byte offsets the text has nothing but blanks. -/
def BlankBetween (t : Text) (start stop : Nat) : Prop :=
  ∃ gap, ReadsAt t start gap ∧ start + utf8Size gap = stop ∧ ∀ c ∈ gap, isBlank c = true

/-- Only the empty text has no bytes. -/
theorem eq_nil_of_utf8Size_eq_zero {t : Text} (h : utf8Size t = 0) : t = [] := by
  rw [utf8Size_eq_utf8Len] at h
  exact String.utf8Len_eq_zero.mp h

/-- A text is cut in one way at a byte offset. -/
theorem append_inj_of_utf8Size {front back front' back' : Text}
    (h : front ++ back = front' ++ back') (hsize : utf8Size front = utf8Size front') :
    front = front' ∧ back = back' := by
  rcases List.append_eq_append_iff.mp h with ⟨middle, rfl, rfl⟩ | ⟨middle, rfl, rfl⟩
  all_goals
    rw [utf8Size_append] at hsize
    obtain rfl := eq_nil_of_utf8Size_eq_zero (t := middle) (by omega)
    simp

section Parts

variable {t front back part : Text} {position start stop : Nat} {c : Char}

/-- The middle part of a text is read behind the bytes of the first one. -/
theorem readsAt_append (front part back : Text) :
    ReadsAt (front ++ part ++ back) (utf8Size front) part := ⟨front, back, rfl, rfl⟩

/-- What a text reads behind its front stands at the beginning of its back. -/
theorem ReadsAt.exists_append (h : ReadsAt (front ++ back) (utf8Size front) part) :
    ∃ rest, back = part ++ rest := by
  obtain ⟨front', rest, htext, hsize⟩ := h
  rw [List.append_assoc] at htext
  obtain ⟨-, hback⟩ := append_inj_of_utf8Size htext hsize.symm
  exact ⟨rest, hback⟩

/-- Between an offset and itself there is nothing that could not be blank. -/
theorem blankBetween_self (front back : Text) :
    BlankBetween (front ++ back) (utf8Size front) (utf8Size front) :=
  ⟨[], ⟨front, back, by simp, rfl⟩, rfl, by simp⟩

/-- Nothing but blanks between two offsets means that the first is not behind the second. -/
theorem BlankBetween.le (h : BlankBetween t start stop) : start ≤ stop := by
  obtain ⟨gap, -, hstop, -⟩ := h
  omega

/-- A blank in front of blanks. -/
theorem BlankBetween.of_blank (hread : ReadsAt t start [c]) (hblank : isBlank c = true)
    (h : BlankBetween t (start + c.utf8Size) stop) : BlankBetween t start stop := by
  obtain ⟨front, back, rfl, rfl⟩ := hread
  obtain ⟨gap, hgap, hstop, hblanks⟩ := h
  have hsize : utf8Size (front ++ [c]) = utf8Size front + c.utf8Size := by
    rw [utf8Size_append]
    rfl
  rw [← hsize] at hgap
  obtain ⟨rest, rfl⟩ := hgap.exists_append
  refine ⟨c :: gap, ⟨front, rest, by simp, rfl⟩, ?_, List.forall_mem_cons.mpr ⟨hblank, hblanks⟩⟩
  rw [utf8Size, ← hstop]
  omega

end Parts

end Text

/-- The byte offset behind a lexeme. -/
def Lexeme.stop (l : Lexeme) : Nat := l.position + Text.utf8Size l.token.spelling

/-- The stretches outside of lexemes in a part of a text: from its start to the first one, between
neighbours, and from the last one to the stop. -/
def Lexeme.gaps (start stop : Nat) : List Lexeme → List (Nat × Nat)
  | [] => [(start, stop)]
  | l :: ls => (start, l.position) :: gaps l.stop stop ls

namespace Token

/-- The lexemes are laid out in the text from an offset on. -/
structure LaidOut (t : Text) (start : Nat) (ls : List Lexeme) : Prop where
  increasing : ls.Pairwise fun l k => l.position < k.position
  /-- Every offset lies between two characters, and the token stands behind it. -/
  reads : ∀ l ∈ ls, Text.ReadsAt t l.position l.token.spelling
  /-- Nothing but blanks stands in front of the first token, between two of them, and behind the
  last one. -/
  blank : ∀ gap ∈ Lexeme.gaps start (Text.utf8Size t) ls, Text.BlankBetween t gap.1 gap.2
  /-- Words consist of characters of words and are not empty, and references have a name. -/
  valid : ∀ l ∈ ls, l.token.Valid
  /-- There is something between two words. -/
  wordsApart : ls.Pairwise fun l k =>
    ∀ v w, l.token = .word v → k.token = .word w → l.stop < k.position
  /-- A reference goes on to a blank, a bracket, a bar or the end of the text. -/
  referencesEnd : ∀ l ∈ ls, ∀ name, l.token = .reference name →
    l.stop = Text.utf8Size t ∨ ∃ c, endsReference c = true ∧ Text.ReadsAt t l.stop [c]

section Layout

variable {t front back : Text} {start : Nat} {ls : List Lexeme} {l : Lexeme} {token : Token}
  {c : Char}

/-! ## What tiles a text is laid out in it -/

/-- The lexemes behind the first one are laid out from its end on. -/
theorem LaidOut.tail (h : LaidOut t start (l :: ls)) : LaidOut t l.stop ls where
  increasing := (List.pairwise_cons.mp h.increasing).2
  reads := (List.forall_mem_cons.mp h.reads).2
  blank := (List.forall_mem_cons.mp h.blank).2
  valid := (List.forall_mem_cons.mp h.valid).2
  wordsApart := (List.pairwise_cons.mp h.wordsApart).2
  referencesEnd := (List.forall_mem_cons.mp h.referencesEnd).2

/-- In front of the first lexeme there are blanks. -/
theorem LaidOut.blankBetween_first (h : LaidOut t start (l :: ls)) :
    Text.BlankBetween t start l.position := (List.forall_mem_cons.mp h.blank).1

/-- Lexemes that are laid out from an offset on begin there or behind it. -/
theorem LaidOut.le_position (h : LaidOut t start ls) : ∀ l ∈ ls, start ≤ l.position := by
  induction ls generalizing start with
  | nil => simp
  | cons k ls ih =>
    have hfirst : start ≤ k.position := h.blankBetween_first.le
    intro l hl
    rcases List.mem_cons.mp hl with rfl | hl
    · exact hfirst
    · have hrest : k.stop ≤ l.position := ih h.tail l hl
      unfold Lexeme.stop at hrest
      omega

/-- At the end of a text no lexemes are laid out. -/
theorem laidOut_nil (t : Text) : LaidOut t (Text.utf8Size t) [] where
  increasing := .nil
  reads := by simp
  blank := by
    have hself := Text.blankBetween_self t []
    rw [List.append_nil] at hself
    exact List.forall_mem_singleton.mpr hself
  valid := by simp
  wordsApart := .nil
  referencesEnd := by simp

/-- Lexemes behind a blank are laid out in front of it as well. -/
theorem LaidOut.of_blank (hread : Text.ReadsAt t start [c]) (hblank : Text.isBlank c = true)
    (h : LaidOut t (start + c.utf8Size) ls) : LaidOut t start ls := by
  refine { h with blank := ?_ }
  cases ls with
  | nil =>
    have hgap := List.forall_mem_singleton.mp h.blank
    exact List.forall_mem_singleton.mpr (hgap.of_blank hread hblank)
  | cons l ls =>
    obtain ⟨hgap, hgaps⟩ := List.forall_mem_cons.mp h.blank
    exact List.forall_mem_cons.mpr ⟨hgap.of_blank hread hblank, hgaps⟩

/-- The spelling of a valid token has bytes. -/
theorem utf8Size_spelling_pos (h : token.Valid) : 0 < Text.utf8Size token.spelling := by
  by_contra hzero
  exact spelling_ne_nil h (Text.eq_nil_of_utf8Size_eq_zero (by omega))

/-- A word that ends before a text touches no word in it. -/
theorem not_readsAt_word {v w : Text} (hends : (Token.word v).EndsBefore back) (hword : IsWord w) :
    ¬ Text.ReadsAt (front ++ back) (Text.utf8Size front) w := by
  intro hread
  obtain ⟨rest, rfl⟩ := hread.exists_append
  obtain ⟨d, w, rfl⟩ := List.exists_cons_of_ne_nil hword.1
  have hin : isWordChar d = true := hword.2 d List.mem_cons_self
  have hout : isWordChar d = false := hends d (by simp)
  rw [hin] at hout
  contradiction

/-- A token in front of lexemes that are laid out behind it. -/
theorem LaidOut.of_token (hvalid : token.Valid) (hends : token.EndsBefore back)
    (h : LaidOut (front ++ token.spelling ++ back) (Text.utf8Size (front ++ token.spelling)) ls) :
    LaidOut (front ++ token.spelling ++ back) (Text.utf8Size front)
      (⟨Text.utf8Size front, token⟩ :: ls) := by
  have hstop : Lexeme.stop ⟨Text.utf8Size front, token⟩ = Text.utf8Size (front ++ token.spelling) :=
    (Text.utf8Size_append _ _).symm
  have hbehind : ∀ k ∈ ls, Lexeme.stop ⟨Text.utf8Size front, token⟩ ≤ k.position := by
    intro k hk
    rw [hstop]
    exact h.le_position k hk
  have hpos := utf8Size_spelling_pos hvalid
  constructor
  case increasing =>
    refine List.pairwise_cons.mpr ⟨fun k hk => ?_, h.increasing⟩
    have hle := hbehind k hk
    unfold Lexeme.stop at hle
    exact Nat.lt_of_lt_of_le (Nat.lt_add_of_pos_right hpos) hle
  case reads =>
    exact List.forall_mem_cons.mpr ⟨Text.readsAt_append front token.spelling back, h.reads⟩
  case blank =>
    rw [← hstop] at h
    refine List.forall_mem_cons.mpr ⟨?_, h.blank⟩
    rw [List.append_assoc]
    exact Text.blankBetween_self front (token.spelling ++ back)
  case valid => exact List.forall_mem_cons.mpr ⟨hvalid, h.valid⟩
  case wordsApart =>
    refine List.pairwise_cons.mpr ⟨fun k hk v w hv hw => ?_, h.wordsApart⟩
    -- If nothing stood between the two words, the first one would not end before the text.
    refine Nat.lt_of_le_of_ne (hbehind k hk) fun htouch => ?_
    have hread := h.reads k hk
    have hword := h.valid k hk
    rw [hw] at hread hword
    rw [← htouch, hstop] at hread
    obtain rfl : token = .word v := hv
    exact not_readsAt_word hends hword hread
  case referencesEnd =>
    refine List.forall_mem_cons.mpr ⟨fun name hname => ?_, h.referencesEnd⟩
    obtain rfl : token = .reference name := hname
    rw [hstop]
    cases back with
    | nil => exact .inl (by rw [List.append_nil])
    | cons d back =>
      refine .inr ⟨d, hends d rfl, ?_⟩
      have hsplit : front ++ (Token.reference name).spelling ++ d :: back =
          front ++ (Token.reference name).spelling ++ [d] ++ back := by simp
      rw [hsplit]
      exact Text.readsAt_append _ [d] back

/-- Lexemes that tile what stands behind a part of a text are laid out there. -/
theorem Tiles.laidOut {position : Nat} (h : Tiles position back ls)
    (hposition : Text.utf8Size front = position) : LaidOut (front ++ back) position ls := by
  -- The whole text stays as it is while its front grows, so nothing that is laid out has to move.
  induction h generalizing front with
  | nil position =>
    subst hposition
    rw [List.append_nil]
    exact laidOut_nil front
  | @blank position c t ls hblank _ ih =>
    have hsize : Text.utf8Size (front ++ [c]) = position + c.utf8Size := by
      rw [Text.utf8Size_append, hposition]
      rfl
    have hrest := ih hsize
    rw [List.append_assoc, List.singleton_append] at hrest
    exact hrest.of_blank ⟨front, t, by simp, hposition⟩ hblank
  | @token position token t ls hvalid hends _ ih =>
    subst hposition
    have hrest := ih (Text.utf8Size_append front token.spelling)
    rw [← Text.utf8Size_append] at hrest
    rw [← List.append_assoc]
    exact hrest.of_token hvalid hends

/-! ## What is laid out in a text tiles it -/

/-- Blanks in front of what is tiled. -/
theorem Tiles.of_blanks {gap : Text} (hblank : ∀ c ∈ gap, Text.isBlank c = true) {position : Nat}
    (h : Tiles (position + Text.utf8Size gap) t ls) : Tiles position (gap ++ t) ls := by
  induction gap generalizing position with
  | nil => exact h
  | cons c gap ih =>
    obtain ⟨hc, hgap⟩ := List.forall_mem_cons.mp hblank
    rw [Text.utf8Size, ← Nat.add_assoc] at h
    exact .blank hc (ih hgap h)

/-- No token but a word begins with a character of a word. -/
theorem exists_word_of_head? (hvalid : token.Valid) (hc : c ∈ (token.spelling ++ t).head?)
    (hchar : isWordChar c = true) : ∃ w, token = .word w := by
  cases token with
  | word w => exact ⟨w, rfl⟩
  | _ =>
    exfalso
    obtain rfl := Option.some.inj hc
    exact not_mem_reserved hchar (by decide)

/-- A word ends before what is tiled by lexemes none of which is a word that touches it. -/
theorem Tiles.endsBefore_word {position : Nat} (h : Tiles position t ls)
    (hapart : ∀ k ∈ ls, ∀ w, k.token = .word w → position < k.position) (v : Text) :
    (Token.word v).EndsBefore t := by
  intro c hc
  cases h with
  | nil => contradiction
  | blank hblank _ =>
    obtain rfl := Option.some.inj hc
    by_contra hchar
    rw [isBlank_of_isWordChar (by simpa using hchar)] at hblank
    contradiction
  | @token _ token _ _ hvalid _ _ =>
    by_contra hchar
    obtain ⟨w, rfl⟩ := exists_word_of_head? hvalid hc (by simpa using hchar)
    exact Nat.lt_irrefl _ (hapart _ List.mem_cons_self w rfl)

/-- A token that is laid out in front of lexemes which tile the rest of the text ends there. -/
theorem LaidOut.endsBefore (h : LaidOut (front ++ back) start (l :: ls))
    (hstop : l.stop = Text.utf8Size front) (hback : Tiles l.stop back ls) :
    l.token.EndsBefore back := by
  cases htoken : l.token with
  | word v =>
    apply hback.endsBefore_word
    intro k hk w hw
    exact (List.pairwise_cons.mp h.wordsApart).1 k hk v w htoken hw
  | reference name =>
    intro d hd
    rcases (List.forall_mem_cons.mp h.referencesEnd).1 name htoken with hend | ⟨c, hc, hread⟩
    · rw [hstop, Text.utf8Size_append] at hend
      obtain rfl := Text.eq_nil_of_utf8Size_eq_zero (t := back) (by omega)
      contradiction
    · rw [hstop] at hread
      obtain ⟨rest, rfl⟩ := hread.exists_append
      obtain rfl := Option.some.inj hd
      exact hc
  | _ => trivial

/-- Behind a part of a text, lexemes that are laid out begin with blanks and a token. -/
theorem LaidOut.exists_split (h : LaidOut (front ++ back) (Text.utf8Size front) (l :: ls)) :
    ∃ gap behind, back = gap ++ (l.token.spelling ++ behind) ∧
      (∀ c ∈ gap, Text.isBlank c = true) ∧ l.position = Text.utf8Size front + Text.utf8Size gap := by
  obtain ⟨gap, hgap, hposition, hblank⟩ := h.blankBetween_first
  obtain ⟨rest, rfl⟩ := hgap.exists_append
  have hread := (List.forall_mem_cons.mp h.reads).1
  rw [← hposition, ← List.append_assoc, ← Text.utf8Size_append] at hread
  obtain ⟨behind, rfl⟩ := hread.exists_append
  exact ⟨gap, behind, rfl, hblank, hposition.symm⟩

/-- Lexemes that are laid out behind a part of a text tile what stands there. -/
theorem LaidOut.tiles (h : LaidOut (front ++ back) (Text.utf8Size front) ls) :
    Tiles (Text.utf8Size front) back ls := by
  -- On the lexemes. What stands in front grows by the blanks before each of them and by its token.
  induction ls generalizing front back with
  | nil =>
    obtain ⟨gap, hgap, hstop, hblank⟩ := List.forall_mem_singleton.mp h.blank
    obtain ⟨rest, rfl⟩ := hgap.exists_append
    simp only [Text.utf8Size_append] at hstop
    obtain rfl := Text.eq_nil_of_utf8Size_eq_zero (t := rest) (by omega)
    exact Tiles.of_blanks hblank (.nil _)
  | cons l ls ih =>
    obtain ⟨gap, behind, rfl, hblank, hposition⟩ := h.exists_split
    have hstop : l.stop = Text.utf8Size (front ++ gap ++ l.token.spelling) := by
      rw [Lexeme.stop, hposition, Text.utf8Size_append, Text.utf8Size_append]
    have hsplit : front ++ (gap ++ (l.token.spelling ++ behind)) =
        front ++ gap ++ l.token.spelling ++ behind := by simp
    rw [hsplit] at h
    have htail := h.tail
    rw [hstop] at htail
    have hbehind := ih htail
    rw [← hstop] at hbehind
    have hvalid : l.token.Valid := (List.forall_mem_cons.mp h.valid).1
    have htoken : Tiles l.position (l.token.spelling ++ behind) (l :: ls) :=
      .token hvalid (h.endsBefore hstop hbehind) hbehind
    rw [hposition] at htoken
    exact Tiles.of_blanks hblank htoken

/-- Tiling a text and being laid out in it are the same. -/
theorem laidOut_iff_tiles : LaidOut t 0 ls ↔ Tiles 0 t ls := by
  constructor
  · intro h
    have hwhole : LaidOut ([] ++ t) (Text.utf8Size []) ls := h
    exact hwhole.tiles
  · intro h
    have hempty : Text.utf8Size [] = 0 := rfl
    exact h.laidOut hempty

end Layout

/-- Scanning finds the lexemes that are laid out in a text, from its beginning to its end, and it
fails exactly for those texts in which no lexemes are. -/
theorem scan_finds_layout (t : Text) :
    (∀ ls, scan 0 t = .ok ls ↔ LaidOut t 0 ls) ∧
      ((∃ fault, scan 0 t = .error fault) ↔ ¬ ∃ ls, LaidOut t 0 ls) := by
  have hscan : ∀ ls, scan 0 t = .ok ls ↔ LaidOut t 0 ls := by
    intro ls
    rw [scan_eq_ok_iff_tiles, laidOut_iff_tiles]
  refine ⟨hscan, ?_⟩
  simp only [← hscan]
  cases scan 0 t with
  | error fault => simp
  | ok ls => simp

/-- Offsets count bytes, and a reference ends in front of a bar. -/
example : scan 0 "é (%a:x|b)".toList =
    .ok [⟨0, .word ['é']⟩, ⟨3, .openChoice⟩, ⟨4, .reference "x"⟩, ⟨8, .bar⟩, ⟨9, .word ['b']⟩,
      ⟨10, .closeChoice⟩] := by cbv

end Token

end Rejoinder
