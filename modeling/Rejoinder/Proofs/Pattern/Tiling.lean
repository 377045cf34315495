import Mathlib
import Rejoinder.Proofs.Beginnings
import Rejoinder.Proofs.Pattern.WellFormed

/-!
# Texts cut into tokens

Scanning cuts a text into the spellings of tokens and blanks between them. `Token.Tiles` says when
lexemes are such a cut, without a scanner: every token is valid, nothing that follows it could go on
with it, and whatever is not part of a token is blank. A text scans to lexemes exactly if they tile
it (`Token.scan_eq_ok_iff_tiles`).

A text whose front is tiled may be cut behind any of the lexemes (`Tiles.exists_front`), and where
scanning fails, what it has read so far is tiled (`Token.exists_front_of_scan_eq_error`). So a fault
of the scanner or of the parser lies behind a text that has tokens of its own.
-/

set_option autoImplicit false

namespace Rejoinder

/-- The bytes of a text are counted as those of a string. -/
theorem Text.utf8Size_eq_utf8Len (t : Text) : utf8Size t = String.utf8Len t := by
  induction t with
  | nil => rfl
  | cons c t ih => rw [utf8Size, String.utf8Len_cons, ih, Nat.add_comm]

/-- The bytes of two texts are counted one after the other. -/
theorem Text.utf8Size_append (t u : Text) : utf8Size (t ++ u) = utf8Size t + utf8Size u := by
  simp only [utf8Size_eq_utf8Len, String.utf8Len_append]

namespace Token

/-- The text with which a token is written. -/
def spelling : Token → Text
  | .word letters => letters
  | .star => ['*']
  | .underscore => ['_']
  | .openChoice => ['(']
  | .bar => ['|']
  | .closeChoice => [')']
  | .openOptional => ['[']
  | .closeOptional => [']']
  | .reference name => '%' :: 'a' :: ':' :: name.toList

/-- A token does not go on in the text that follows it. -/
def EndsBefore (t : Text) : Token → Prop
  | .word _ => ∀ c ∈ t.head?, isWordChar c = false
  | .reference _ => ∀ c ∈ t.head?, endsReference c = true
  | _ => True

/-- The lexemes are the tokens of a text that begins at this offset, with nothing but blanks between
them. -/
inductive Tiles : Nat → Text → List Lexeme → Prop
  | nil (position : Nat) : Tiles position [] []
  | blank {position : Nat} {c : Char} {t : Text} {ls : List Lexeme} :
      Text.isBlank c = true → Tiles (position + c.utf8Size) t ls → Tiles position (c :: t) ls
  | token {position : Nat} {token : Token} {t : Text} {ls : List Lexeme} :
      token.Valid → token.EndsBefore t → Tiles (position + Text.utf8Size token.spelling) t ls →
      Tiles position (token.spelling ++ t) (⟨position, token⟩ :: ls)

/-! ## Scanning what stands first -/

section First

variable {position : Nat} {c : Char} {token : Token} {t : Text}

/-- A blank is no token and takes up its bytes. -/
theorem scan_blank (h : Text.isBlank c = true) :
    scan position (c :: t) = scan (position + c.utf8Size) t := by
  rw [scan, if_pos h]

/-- A symbol is a token and takes up its bytes. -/
theorem scan_symbol (hblank : Text.isBlank c = false) (h : symbol? c = some token) :
    scan position (c :: t) =
      (scan (position + c.utf8Size) t).map (List.cons ⟨position, token⟩) := by
  rw [scan, if_neg (by simp [hblank]), h]
  rfl

/-- A word is scanned as a whole if no character of a word follows it. -/
theorem scan_word {letters : Text} (hword : IsWord letters)
    (hends : (Token.word letters).EndsBefore t) :
    scan position (letters ++ t) =
      (scan (position + Text.utf8Size letters) t).map (List.cons ⟨position, .word letters⟩) := by
  obtain ⟨hne, hletters⟩ := hword
  obtain ⟨c, rest, rfl⟩ := List.exists_cons_of_ne_nil hne
  obtain ⟨hc, hrest⟩ := List.forall_mem_cons.mp hletters
  have hpercent : c ≠ '%' := by
    rintro rfl
    exact not_mem_reserved hc (by decide)
  rw [List.cons_append, scan, if_neg (by simp [isBlank_of_isWordChar hc]), symbol?_of_isWordChar hc]
  simp only [if_neg hpercent, if_pos hc, takeWhile_append_of_stop hrest hends,
    dropWhile_append_of_stop hrest hends]
  rfl

/-- A reference is scanned as a whole if it ends before what follows it. -/
theorem scan_reference {name : String} (hname : isName name.toList = true)
    (hends : (Token.reference name).EndsBefore t) :
    scan position ('%' :: 'a' :: ':' :: name.toList ++ t) =
      (scan (position + Text.utf8Size ('%' :: 'a' :: ':' :: name.toList)) t).map
        (List.cons ⟨position, .reference name⟩) := by
  have hchars : ∀ c ∈ 'a' :: ':' :: name.toList, (!endsReference c) = true := by
    intro c hc
    rcases List.mem_cons.mp hc with rfl | hc
    · decide
    rcases List.mem_cons.mp hc with rfl | hc
    · decide
    · simp [endsReference_of_isNameChar (isNameChar_of_isName hname c hc)]
  have hstop : ∀ d ∈ t.head?, (!endsReference d) = false := by
    intro d hd
    simp [hends d hd]
  have hblank : Text.isBlank '%' = false := by decide
  have hsymbol : symbol? '%' = none := rfl
  have hread : reference? ('%' :: 'a' :: ':' :: name.toList) = some name :=
    reference?_eq_some_iff.mpr ⟨rfl, hname⟩
  have hsplit : '%' :: 'a' :: ':' :: name.toList ++ t = '%' :: ('a' :: ':' :: name.toList ++ t) :=
    rfl
  rw [hsplit, scan, if_neg (by simp [hblank]), hsymbol]
  simp only [if_pos, takeWhile_append_of_stop hchars hstop, dropWhile_append_of_stop hchars hstop,
    hread]
  rfl

/-- A valid token is scanned as a whole if it ends before what follows it. -/
theorem scan_spelling (hvalid : token.Valid) (hends : token.EndsBefore t) :
    scan position (token.spelling ++ t) =
      (scan (position + Text.utf8Size token.spelling) t).map (List.cons ⟨position, token⟩) := by
  cases token with
  | word letters => exact scan_word hvalid hends
  | reference name => exact scan_reference hvalid hends
  | _ => exact scan_symbol (by decide) rfl

end First

/-! ## Scanning and tiling -/

/-- A symbol is spelled with its character. -/
theorem spelling_of_symbol? {c : Char} {token : Token} (h : symbol? c = some token) :
    token.spelling = [c] ∧ ∀ t, token.EndsBefore t := by
  unfold symbol? at h
  split at h <;> first
    | (obtain rfl := Option.some.inj h; exact ⟨rfl, fun _ => trivial⟩)
    | contradiction

/-- If a token ends before a text, it ends before what the text begins with. -/
theorem EndsBefore.of_append {token : Token} {front back : Text}
    (h : token.EndsBefore (front ++ back)) : token.EndsBefore front := by
  cases front with
  | nil => cases token <;> simp [EndsBefore]
  | cons c front => cases token <;> exact h

/-- What scanning comes upon: a blank, a token with a text that it ends before, or a fault. -/
theorem scan_cases (position : Nat) (c : Char) (t : Text) :
    Text.isBlank c = true ∨
      (∃ token rest, c :: t = spelling token ++ rest ∧ token.Valid ∧ token.EndsBefore rest) ∨
      ∃ cause, scan position (c :: t) = .error ⟨position, cause⟩ := by
  by_cases hblank : Text.isBlank c = true
  · exact .inl hblank
  right
  rw [scan, if_neg hblank]
  cases hsymbol : symbol? c with
  | some token =>
    obtain ⟨hspelling, hends⟩ := spelling_of_symbol? hsymbol
    exact .inl ⟨token, t, by rw [hspelling]; rfl, valid_of_symbol? hsymbol, hends t⟩
  | none =>
    by_cases hpercent : c = '%'
    · cases hreference : reference? (c :: t.takeWhile (!endsReference ·)) with
      | some name =>
        obtain ⟨hwritten, hname⟩ := reference?_eq_some_iff.mp hreference
        refine .inl ⟨.reference name, t.dropWhile (!endsReference ·), ?_, hname, ?_⟩
        · rw [spelling, ← hwritten, List.cons_append, List.takeWhile_append_dropWhile]
        · intro d hd
          simpa using eq_false_of_mem_head?_dropWhile d hd
      | none =>
        right
        simp only [if_pos hpercent, hreference]
        exact ⟨_, rfl⟩
    · by_cases hword : isWordChar c = true
      · refine .inl ⟨.word (c :: t.takeWhile isWordChar), t.dropWhile isWordChar, ?_, ?_, ?_⟩
        · rw [spelling, List.cons_append, List.takeWhile_append_dropWhile]
        · refine ⟨by simp, List.forall_mem_cons.mpr ⟨hword, ?_⟩⟩
          exact fun d hd => List.mem_takeWhile_imp hd
        · exact eq_false_of_mem_head?_dropWhile
      · right
        simp only [if_neg hpercent, if_neg hword]
        split
        · exact ⟨_, rfl⟩
        · exact ⟨_, rfl⟩

/-- The spelling of a valid token is not empty. -/
theorem spelling_ne_nil {token : Token} (h : token.Valid) : token.spelling ≠ [] := by
  cases token with
  | word letters => exact h.1
  | _ => simp [spelling]

section Tiled

variable {position : Nat} {t : Text} {ls : List Lexeme}

/-- Tiles are scanned one by one. -/
theorem Tiles.scan_eq_ok (h : Tiles position t ls) : scan position t = .ok ls := by
  induction h with
  | nil => rw [scan]
  | blank hblank _ ih => rw [scan_blank hblank, ih]
  | token hvalid hends _ ih =>
    rw [scan_spelling hvalid hends, ih]
    rfl

/-- What scanning has read, whether it reaches the end of the text or a fault, is tiled. -/
theorem exists_tiles_of_scan (position : Nat) (t : Text) :
    (∃ ls, scan position t = .ok ls ∧ Tiles position t ls) ∨
      ∃ fault front back ls, scan position t = .error fault ∧ t = front ++ back ∧
        fault.position = position + Text.utf8Size front ∧ Tiles position front ls := by
  -- On the length of the text, since a token takes off several characters at once.
  induction hlength : t.length using Nat.strongRecOn generalizing position t with
  | ind n ih =>
    subst hlength
    cases t with
    | nil => exact .inl ⟨[], by rw [scan], .nil position⟩
    | cons c t =>
      rcases scan_cases position c t with hblank | ⟨token, rest, htext, hvalid, hends⟩ | ⟨cause, h⟩
      · rw [scan_blank hblank]
        rcases ih t.length (by simp) (position + c.utf8Size) t rfl with
          ⟨ls, hscan, htiles⟩ | ⟨fault, front, back, ls, hscan, rfl, hfault, htiles⟩
        · exact .inl ⟨ls, hscan, .blank hblank htiles⟩
        · refine .inr ⟨fault, c :: front, back, ls, hscan, rfl, ?_, .blank hblank htiles⟩
          rw [hfault, Text.utf8Size, Nat.add_assoc]
      · have hshorter : rest.length < (c :: t).length := by
          rw [htext, List.length_append]
          exact Nat.lt_add_of_pos_left (List.length_pos_iff.mpr (spelling_ne_nil hvalid))
        rw [htext, scan_spelling hvalid hends]
        rcases ih rest.length hshorter (position + Text.utf8Size token.spelling) rest rfl with
          ⟨ls, hscan, htiles⟩ | ⟨fault, front, back, ls, hscan, rfl, hfault, htiles⟩
        · exact .inl ⟨_, by rw [hscan]; rfl, .token hvalid hends htiles⟩
        · refine .inr ⟨fault, token.spelling ++ front, back, _, by rw [hscan]; rfl, by simp, ?_,
            .token hvalid hends.of_append htiles⟩
          rw [hfault, Text.utf8Size_append, Nat.add_assoc]
      · exact .inr ⟨_, [], c :: t, [], h, rfl, rfl, .nil position⟩

/-- A text scans to the lexemes that tile it. -/
theorem scan_eq_ok_iff_tiles : scan position t = .ok ls ↔ Tiles position t ls := by
  constructor
  · intro h
    rcases exists_tiles_of_scan position t with ⟨ls', hscan, htiles⟩ | ⟨fault, _, _, _, hscan, _⟩
    · rw [hscan] at h
      obtain rfl := Except.ok.inj h
      exact htiles
    · rw [hscan] at h
      contradiction
  · exact Tiles.scan_eq_ok

/-- A fault of scanning lies behind a text that is tiled. -/
theorem exists_front_of_scan_eq_error {fault : SyntaxFault} (h : scan position t = .error fault) :
    ∃ front back ls, t = front ++ back ∧ fault.position = position + Text.utf8Size front ∧
      Tiles position front ls := by
  rcases exists_tiles_of_scan position t with
    ⟨ls, hscan, _⟩ | ⟨fault', front, back, ls, hscan, hrest⟩
  · rw [hscan] at h
    contradiction
  · rw [hscan] at h
    obtain rfl := Except.error.inj h
    exact ⟨front, back, ls, hrest⟩

/-- Tiles may be cut apart in front of any lexeme, and behind the last one. -/
theorem Tiles.exists_front {rest : List Lexeme} (h : Tiles position t (ls ++ rest)) :
    ∃ front back, t = front ++ back ∧ Tiles position front ls ∧
      (rest.head?.map Lexeme.position).getD (position + Text.utf8Size t) =
        position + Text.utf8Size front := by
  generalize hall : ls ++ rest = all at h
  induction h generalizing ls with
  | nil position =>
    obtain ⟨rfl, rfl⟩ := List.append_eq_nil_iff.mp hall
    exact ⟨[], [], rfl, .nil position, rfl⟩
  | @blank position c t all hblank _ ih =>
    obtain ⟨front, back, rfl, htiles, hposition⟩ := ih hall
    refine ⟨c :: front, back, rfl, .blank hblank htiles, ?_⟩
    simp only [Text.utf8Size, ← Nat.add_assoc]
    exact hposition
  | @token position token t all hvalid hends htiles ih =>
    cases ls with
    | nil =>
      rw [List.nil_append] at hall
      exact ⟨[], token.spelling ++ t, rfl, .nil position, by rw [hall]; rfl⟩
    | cons l ls =>
      obtain ⟨rfl, hrest⟩ := List.cons.inj hall
      obtain ⟨front, back, rfl, hfront, hposition⟩ := ih hrest
      refine ⟨token.spelling ++ front, back, by simp, .token hvalid hends.of_append hfront, ?_⟩
      simp only [Text.utf8Size_append, ← Nat.add_assoc] at hposition ⊢
      exact hposition

/-- Tiled texts may be put together where every token ends. -/
theorem Tiles.append {rest : Text} {ks : List Lexeme} (h : Tiles position t ls)
    (hends : ∀ token : Token, token.EndsBefore rest)
    (hrest : Tiles (position + Text.utf8Size t) rest ks) :
    Tiles position (t ++ rest) (ls ++ ks) := by
  induction h with
  | nil => exact hrest
  | blank hblank _ ih =>
    rw [Text.utf8Size, ← Nat.add_assoc] at hrest
    exact .blank hblank (ih hrest)
  | @token position token t ls hvalid htoken _ ih =>
    rw [Text.utf8Size_append, ← Nat.add_assoc] at hrest
    rw [List.append_assoc]
    refine .token hvalid ?_ (ih hrest)
    cases t with
    | nil => exact hends token
    | cons c t => cases token <;> exact htoken

end Tiled

end Token

end Rejoinder
