import Mathlib
import Rejoinder.Proofs.Pattern.Tiling
import Rejoinder.Rule

/-!
# Printing and parsing

The canonical text of a well-formed pattern is scanned into tokens that derive the pattern, so it
parses to the pattern again. The proof follows the printer. What it needs from the text behind a
part is only that no word and no reference can go on there (`EndsTokens`), and the printer writes
a space, a bar or a closing bracket behind every element.

Since parsing undoes printing, no two patterns have one canonical text, and the key of a rule tells
its two patterns.
-/

set_option autoImplicit false

namespace Rejoinder

open Pattern

/-! ## Scanning a text in front of another -/

/-- The text has these tokens, wherever it begins. -/
def Scans (t : Text) (ts : List Token) : Prop :=
  ∀ position, ∃ ls, Token.scan position t = .ok ls ∧ ls.map Lexeme.token = ts

/-- Neither a word nor a reference goes on at the beginning of the text. -/
def EndsTokens (t : Text) : Prop :=
  ∀ c ∈ t.head?, Token.isWordChar c = false ∧ Token.endsReference c = true

/-- The empty text has no tokens. -/
theorem scans_nil : Scans [] [] := by
  intro position
  exact ⟨[], by rw [Token.scan], rfl⟩

/-- A blank in front does not change the tokens. -/
theorem scans_blank {c : Char} {t : Text} {ts : List Token} (hc : Text.isBlank c = true)
    (h : Scans t ts) : Scans (c :: t) ts := by
  intro position
  obtain ⟨ls, hscan, hls⟩ := h (position + c.utf8Size)
  exact ⟨ls, by rw [Token.scan_blank hc, hscan], hls⟩

/-- A token is scanned in front of a text if it does not go on there. -/
theorem scans_token (token : Token) {t : Text} {ts : List Token} (hvalid : token.Valid)
    (hends : token.EndsBefore t) (h : Scans t ts) : Scans (token.spelling ++ t) (token :: ts) := by
  intro position
  obtain ⟨ls, hscan, hls⟩ := h (position + Text.utf8Size token.spelling)
  refine ⟨⟨position, token⟩ :: ls, ?_, by rw [List.map_cons, hls]⟩
  rw [Token.scan_spelling hvalid hends, hscan]
  rfl

/-- A symbol in front is one more token. -/
theorem scans_symbol {c : Char} {token : Token} {t : Text} {ts : List Token}
    (hc : Token.symbol? c = some token) (h : Scans t ts) : Scans (c :: t) (token :: ts) := by
  obtain ⟨hspelling, hends⟩ := Token.spelling_of_symbol? hc
  have hscans := scans_token token (Token.valid_of_symbol? hc) (hends t) h
  rwa [hspelling] at hscans

/-- A word is scanned as a whole if no character of a word follows it. -/
theorem scans_word {letters t : Text} {ts : List Token} (hword : Token.IsWord letters)
    (hend : EndsTokens t) (h : Scans t ts) : Scans (letters ++ t) (.word letters :: ts) :=
  scans_token (.word letters) hword (fun d hd => (hend d hd).1) h

/-- A reference is scanned as a whole if it ends before what follows it. -/
theorem scans_reference {name : String} {t : Text} {ts : List Token}
    (hname : Token.isName name.toList = true) (hend : EndsTokens t) (h : Scans t ts) :
    Scans ('%' :: 'a' :: ':' :: (name.toList ++ t)) (.reference name :: ts) :=
  scans_token (.reference name) hname (fun d hd => (hend d hd).2) h

/-! ## Scanning what the printer writes -/

/-- The text is a phrase: its tokens derive the phrase, whatever stands behind it. -/
def Prints (t : Text) (ph : Phrase) : Prop :=
  ∃ ts, ph.Derives ts ∧
    ∀ rest us, EndsTokens rest → Scans rest us → Scans (t ++ rest) (ts ++ us)

/-- Nothing goes on at the end of a text, before a space, before a bar or before a bracket. -/
theorem endsTokens_nil : EndsTokens [] := by
  intro c hc
  simp at hc

/-- A character that no word or reference goes on with ends the tokens before it. -/
theorem endsTokens_cons {c : Char} {t : Text} (hword : Token.isWordChar c = false)
    (hend : Token.endsReference c = true) : EndsTokens (c :: t) := by
  intro d hd
  obtain rfl := Option.some.inj hd
  exact ⟨hword, hend⟩

/-- A text with one separator between its pieces, of which there are two at least. -/
theorem joinWith_cons_cons (separator : Char) (v w : Text) (ws : List Text) :
    Text.joinWith separator (v :: w :: ws) =
      v ++ separator :: Text.joinWith separator (w :: ws) := by
  simp [Text.joinWith]

/-- A single piece has no separator. -/
theorem joinWith_singleton (separator : Char) (w : Text) :
    Text.joinWith separator [w] = w := by
  simp [Text.joinWith]

mutual

/-- The canonical text of a well-formed element is that element. -/
theorem prints_elementText : (e : Element) → e.WellFormed → Prints (elementText e) (.element e)
  | .word letters, h => by
    refine ⟨_, .word letters, fun rest us hend hscan => ?_⟩
    exact scans_word h hend hscan
  | .anyWords, _ => by
    refine ⟨_, .anyWords, fun rest us hend hscan => ?_⟩
    exact scans_symbol rfl hscan
  | .anyWord, _ => by
    refine ⟨_, .anyWord, fun rest us hend hscan => ?_⟩
    exact scans_symbol rfl hscan
  | .choice branches, h => by
    obtain ⟨ts, hts, hscans⟩ := prints_branchTexts branches h.1 h.2
    refine ⟨_, .choice hts, fun rest us hend hscan => ?_⟩
    have hclose : EndsTokens (')' :: rest) := endsTokens_cons (by decide) (by decide)
    have hinner := hscans _ _ hclose (scans_symbol rfl hscan)
    have houter := scans_symbol (c := '(') rfl hinner
    simpa [elementText] using houter
  | .optional body, h => by
    obtain ⟨ts, hts, hscans⟩ := prints_elementTexts body h.2
    refine ⟨_, .optional (.sequence hts h.1), fun rest us hend hscan => ?_⟩
    have hclose : EndsTokens (']' :: rest) := endsTokens_cons (by decide) (by decide)
    have hinner := hscans _ _ hclose (scans_symbol rfl hscan)
    have houter := scans_symbol (c := '[') rfl hinner
    simpa [elementText] using houter
  | .reference name, h => by
    refine ⟨_, .reference name, fun rest us hend hscan => ?_⟩
    exact scans_reference h hend hscan

/-- The canonical text of well-formed elements is these elements. -/
theorem prints_elementTexts : (es : List Element) → elementsWellFormed es →
    Prints (Text.unwords (elementTexts es)) (.elements es)
  | [], _ => ⟨[], .nil, fun rest us hend hscan => hscan⟩
  | [e], h => by
    obtain ⟨ts, hts, hscans⟩ := prints_elementText e h.1
    refine ⟨_, .cons hts .nil, fun rest us hend hscan => ?_⟩
    simpa [elementTexts, Text.unwords, joinWith_singleton] using hscans rest us hend hscan
  | e :: f :: es, h => by
    obtain ⟨ts, hts, hscans⟩ := prints_elementText e h.1
    obtain ⟨vs, hvs, hscans'⟩ := prints_elementTexts (f :: es) h.2
    refine ⟨_, .cons hts hvs, fun rest us hend hscan => ?_⟩
    have hspace : EndsTokens (' ' :: (Text.unwords (elementTexts (f :: es)) ++ rest)) :=
      endsTokens_cons (by decide) (by decide)
    have hrest := scans_blank (c := ' ') (by decide) (hscans' rest us hend hscan)
    have hall := hscans _ _ hspace hrest
    simpa [elementTexts, Text.unwords, joinWith_cons_cons] using hall

/-- The canonical texts of well-formed branches with bars between them are these branches. -/
theorem prints_branchTexts : (bs : List (List Element)) → bs ≠ [] → branchesWellFormed bs →
    Prints (Text.joinWith '|' (branchTexts bs)) (.branches bs)
  | [], hne, _ => absurd rfl hne
  | [b], _, h => by
    obtain ⟨ts, hts, hscans⟩ := prints_elementTexts b h.1.2
    refine ⟨_, .lastBranch (.sequence hts h.1.1), fun rest us hend hscan => ?_⟩
    simpa [branchTexts, joinWith_singleton] using hscans rest us hend hscan
  | b :: c :: bs, _, h => by
    obtain ⟨ts, hts, hscans⟩ := prints_elementTexts b h.1.2
    obtain ⟨vs, hvs, hscans'⟩ := prints_branchTexts (c :: bs) (by simp) h.2
    refine ⟨_, .branch (.sequence hts h.1.1) hvs, fun rest us hend hscan => ?_⟩
    have hbar : EndsTokens ('|' :: (Text.joinWith '|' (branchTexts (c :: bs)) ++ rest)) :=
      endsTokens_cons (by decide) (by decide)
    have hrest := scans_symbol (c := '|') rfl (hscans' rest us hend hscan)
    have hall := hscans _ _ hbar hrest
    simpa [branchTexts, joinWith_cons_cons] using hall

end

/-! ## The round trip -/

/-- The canonical text of a well-formed pattern parses to the pattern. -/
theorem parse_format {p : Pattern} (h : p.WellFormed) :
    Grammar.bundled.parse (Grammar.bundled.format p) = .ok p := by
  obtain ⟨ts, hts, hscans⟩ := prints_elementTexts p h.2
  obtain ⟨ls, hscan, hls⟩ := hscans [] [] endsTokens_nil scans_nil 0
  rw [List.append_nil] at hscan
  rw [List.append_nil] at hls
  refine (bundled_parse_eq_ok_iff _ _).mpr ⟨ls, ?_, ?_⟩
  · show Token.scan 0 (String.ofList p.text).toList = _
    rw [String.toList_ofList]
    exact hscan
  · rw [hls]
    exact .sequence hts h.1

/-- Well-formed patterns with one canonical text are equal. -/
theorem eq_of_format_eq {p q : Pattern} (hp : p.WellFormed) (hq : q.WellFormed)
    (h : Grammar.bundled.format p = Grammar.bundled.format q) : p = q := by
  have hparse := parse_format hp
  rw [h, parse_format hq] at hparse
  exact (Except.ok.inj hparse).symm

/-- What a rule is made of: its patterns come from texts, and its canonical texts are theirs. -/
theorem Rule.of_ofSpec {name : String} {spec : RuleSpec} {r : Rule}
    (h : Rule.ofSpec Grammar.bundled name spec = .ok r) :
    r.pattern.WellFormed ∧ r.patternText = Grammar.bundled.format r.pattern ∧
      (∀ p ∈ r.previous, p.WellFormed) ∧
      r.previousText = r.previous.map Grammar.bundled.format := by
  obtain ⟨pattern, hpattern, h⟩ := bind_eq_ok_iff.mp h
  obtain ⟨previous, hprevious, h⟩ := bind_eq_ok_iff.mp h
  obtain rfl := Except.ok.inj h
  have hp := wellFormed_of_parse (mapError_eq_ok_iff.mp hpattern)
  refine ⟨hp, rfl, ?_, rfl⟩
  intro p hp
  have hprev := mapError_eq_ok_iff.mp hprevious
  unfold parsePrevious at hprev
  split at hprev
  · obtain rfl := Except.ok.inj hprev
    simp at hp
  · obtain ⟨q, hq, hsome⟩ := map_eq_ok_iff.mp hprev
    rw [← hsome] at hp
    obtain rfl := Option.some.inj hp
    exact wellFormed_of_parse hq

/-- Rules of one key have the same patterns. -/
theorem Rule.patterns_eq_of_key_eq {name name' : String} {spec spec' : RuleSpec} {r r' : Rule}
    (h : Rule.ofSpec Grammar.bundled name spec = .ok r)
    (h' : Rule.ofSpec Grammar.bundled name' spec' = .ok r') (hkey : r.key = r'.key) :
    r.pattern = r'.pattern ∧ r.previous = r'.previous := by
  obtain ⟨hp, htext, hprev, hprevText⟩ := Rule.of_ofSpec h
  obtain ⟨hp', htext', hprev', hprevText'⟩ := Rule.of_ofSpec h'
  obtain ⟨hpattern, hprevious⟩ := Prod.mk.inj hkey
  rw [htext, htext'] at hpattern
  rw [hprevText, hprevText'] at hprevious
  refine ⟨eq_of_format_eq hp hp' hpattern, ?_⟩
  cases hr : r.previous with
  | none =>
    rw [hr] at hprevious
    exact (Option.map_eq_none_iff.mp hprevious.symm).symm
  | some p =>
    rw [hr] at hprevious
    obtain ⟨q, hq, hformat⟩ := Option.map_eq_some_iff.mp hprevious.symm
    rw [hq, eq_of_format_eq (hprev p hr) (hprev' q hq) hformat.symm]

/-- Printing and parsing undo each other. A parsed pattern is printed so that it parses to itself;
the parser gives well-formed patterns only, and every well-formed pattern is given for its canonical
text; so parsed patterns with one canonical text are equal, and rules of one key have the same
patterns. -/
theorem parse_format_inverse :
    (∀ source p, Grammar.bundled.parse source = .ok p →
      Grammar.bundled.parse (Grammar.bundled.format p) = .ok p) ∧
    (∀ source p, Grammar.bundled.parse source = .ok p → p.WellFormed) ∧
    (∀ p : Pattern, p.WellFormed →
      Grammar.bundled.parse (Grammar.bundled.format p) = .ok p) ∧
    (∀ source source' p q, Grammar.bundled.parse source = .ok p →
      Grammar.bundled.parse source' = .ok q →
      Grammar.bundled.format p = Grammar.bundled.format q → p = q) ∧
    (∀ name name' spec spec' r r', Rule.ofSpec Grammar.bundled name spec = .ok r →
      Rule.ofSpec Grammar.bundled name' spec' = .ok r' → r.key = r'.key →
      r.pattern = r'.pattern ∧ r.previous = r'.previous) := by
  refine ⟨fun source p h => parse_format (wellFormed_of_parse h),
    fun source p h => wellFormed_of_parse h, fun p h => parse_format h, ?_, ?_⟩
  · intro source source' p q hp hq h
    exact eq_of_format_eq (wellFormed_of_parse hp) (wellFormed_of_parse hq) h
  · intro name name' spec spec' r r' h h' hkey
    exact Rule.patterns_eq_of_key_eq h h' hkey

/-- A choice and an optional part behind it, with blanks that the canonical text does not have. -/
theorem parse_format_inverse_choice :
    Grammar.bundled.format
        [.choice [[.word ['y', 'e', 's']], [.word ['o', 'f'], .anyWord]],
          .optional [.reference "thanks"]] = "(yes|of _) [%a:thanks]" ∧
    Grammar.bundled.parse "(yes|of _) [%a:thanks]" =
      .ok [.choice [[.word ['y', 'e', 's']], [.word ['o', 'f'], .anyWord]],
        .optional [.reference "thanks"]] := by
  have hparse : Grammar.bundled.parse "( yes | of  _ )[%a:thanks] " =
      .ok [.choice [[.word ['y', 'e', 's']], [.word ['o', 'f'], .anyWord]],
        .optional [.reference "thanks"]] := by cbv
  have hformat : Grammar.bundled.format
      [.choice [[.word ['y', 'e', 's']], [.word ['o', 'f'], .anyWord]],
        .optional [.reference "thanks"]] = "(yes|of _) [%a:thanks]" := rfl
  refine ⟨hformat, ?_⟩
  rw [← hformat]
  exact parse_format_inverse.1 _ _ hparse

end Rejoinder
