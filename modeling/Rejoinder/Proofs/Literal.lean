import Mathlib
import Rejoinder.Proofs.Engine.Selection
import Rejoinder.Proofs.Pattern.Meaning
import Rejoinder.Proofs.Target

/-!
# Literal patterns

A literal pattern is written with words only, and it describes one list of tokens, its words. The
text of the pattern has the same words, so as a message it is matched exactly if normalization
leaves them as they are, and this is the case if the text has no title case letter
(`Rule.literal_matches_itself_iff`).

The parser takes title case letters for parts of words, although it asks for patterns in lower case.
No normalized message has such a letter, so a rule with a literal pattern that has one never answers
(`Rule.literal_never_matches` for `ǅ`).
-/

set_option autoImplicit false

namespace Rejoinder

/-- Whether a token is a literal word. -/
def Token.isLiteral : Token → Bool
  | .word _ => true
  | _ => false

/-- The pattern consists of words only. -/
def Pattern.IsLiteral (p : Pattern) : Prop := ∀ e ∈ p, ∃ letters, e = .word letters

/-! ## The words of a literal pattern -/

section Scan

variable {position : Nat} {t : Text} {ls : List Lexeme}

/-- The tokens that a single symbol stands for are not literal. -/
theorem Token.isLiteral_of_symbol? {c : Char} {token : Token} (h : symbol? c = some token) :
    token.isLiteral = false := by
  unfold symbol? at h
  split at h <;> grind [isLiteral]

/-- The tokens of a literal pattern are the words of its text, and the text begins with a word or a
blank. -/
theorem Token.words_of_scan (h : scan position t = .ok ls)
    (hliteral : ∀ l ∈ ls, l.token.isLiteral = true) :
    ls.map Lexeme.token = (Text.words t).map Token.word ∧
      ∀ c ∈ t.head?, Text.isBlank c = true ∨ isWordChar c = true := by
  fun_induction scan position t generalizing ls with
  | case1 position =>
    obtain rfl := Except.ok.inj h
    exact ⟨rfl, by simp⟩
  | case2 position c rest hblank ih =>
    rw [Text.words_of_isBlank hblank]
    exact ⟨(ih h hliteral).1, by simp [hblank]⟩
  | case3 position c rest hblank token hsymbol ih =>
    obtain ⟨ks, hks, hls⟩ := bind_eq_ok_iff.mp h
    obtain rfl := Except.ok.inj hls
    have hword := hliteral _ List.mem_cons_self
    simp [isLiteral_of_symbol? hsymbol] at hword
  | case4 => simp at h
  | case5 =>
    obtain ⟨ks, hks, hls⟩ := bind_eq_ok_iff.mp h
    obtain rfl := Except.ok.inj hls
    have hword := hliteral _ List.mem_cons_self
    simp [isLiteral] at hword
  | case6 position c rest hblank hsymbol hpercent hword letters =>
    rename_i ih
    obtain ⟨ks, hks, hls⟩ := bind_eq_ok_iff.mp h
    obtain rfl := Except.ok.inj hls
    obtain ⟨_, hliteral⟩ := List.forall_mem_cons.mp hliteral
    obtain ⟨htokens, hbegins⟩ := ih hks hliteral
    have hletters : ∀ d ∈ letters, Text.isBlank d = false := by
      intro d hd
      refine isBlank_of_isWordChar ?_
      rcases List.mem_cons.mp hd with rfl | hd
      · exact hword
      · exact List.mem_takeWhile_imp hd
    -- the word ends where no character of a word follows, so there has to be a blank
    have hends : ∀ d ∈ (rest.dropWhile isWordChar).head?, Text.isBlank d = true := by
      intro d hd
      have hother := List.head?_dropWhile_not isWordChar rest
      rw [Option.mem_def.mp hd] at hother
      exact (hbegins d hd).resolve_right (by simp [hother])
    have hsplit : c :: rest = letters ++ rest.dropWhile isWordChar := by
      rw [List.cons_append, List.takeWhile_append_dropWhile]
    refine ⟨?_, by simp [hword]⟩
    rw [hsplit, Text.words_append (List.cons_ne_nil _ _) hletters hends, List.map_cons,
      List.map_cons, htokens]
  | case7 => simp at h
  | case8 => simp at h

end Scan

/-! ## The meaning of a literal pattern -/

namespace Pattern

variable {p : Pattern} {ws vs : List Text}

/-- A literal pattern is written with the tokens of its words. -/
theorem exists_words_of_derives {ts : List Token} (h : (Phrase.elements p).Derives ts)
    (hliteral : p.IsLiteral) :
    ∃ ws : List Text, p = ws.map Element.word ∧ ts = ws.map Token.word := by
  induction p generalizing ts with
  | nil =>
    cases h
    exact ⟨[], rfl, rfl⟩
  | cons e es ih =>
    cases h with
    | cons he hes =>
      obtain ⟨⟨w, rfl⟩, hothers⟩ := List.forall_mem_cons.mp hliteral
      obtain ⟨ws, rfl, rfl⟩ := ih hes hothers
      cases he
      exact ⟨w :: ws, rfl, rfl⟩

/-- The elements of a literal pattern are the words of its text. -/
theorem eq_words_of_parse {source : String} (h : Grammar.bundled.parse source = .ok p)
    (hliteral : p.IsLiteral) : p = (Text.words source.toList).map Element.word := by
  obtain ⟨ls, hscan, hderives⟩ := (bundled_parse_eq_ok_iff source p).mp h
  obtain ⟨ws, hp, hls⟩ : ∃ ws : List Text, p = ws.map Element.word ∧
      ls.map Lexeme.token = ws.map Token.word := by
    cases hderives with
    | sequence helements => exact exists_words_of_derives helements hliteral
  have htokens : ∀ l ∈ ls, l.token.isLiteral = true := by
    intro l hl
    obtain ⟨w, _, hw⟩ := List.mem_map.mp (hls ▸ List.mem_map_of_mem hl)
    rw [← hw]
    rfl
  rw [(Token.words_of_scan hscan htokens).1] at hls
  rw [hp, List.map_injective_iff.mpr (fun _ _ => Token.word.inj) hls]

/-- A well-formed sequence of words has literal words only. -/
theorem isWord_of_wellFormed (h : elementsWellFormed (ws.map Element.word)) :
    ∀ w ∈ ws, Token.IsWord w := by
  induction ws with
  | nil => simp
  | cons w ws ih => exact List.forall_mem_cons.mpr ⟨h.1, ih h.2⟩

/-- A literal pattern describes its words. -/
theorem describes_words_iff {alternates : Alternates} :
    Pattern.Describes alternates (ws.map Element.word) vs ↔ vs = ws := by
  induction ws generalizing vs with
  | nil =>
    constructor
    · intro h
      cases h
      rfl
    · rintro rfl
      exact .nil
  | cons w ws ih =>
    constructor
    · intro h
      cases h with
      | word hrest => rw [ih.mp hrest]
    · rintro rfl
      exact .word (ih.mpr rfl)

end Pattern

namespace Rule

variable {r : Rule} {alternates : Alternates} {s : Text}

/-- A rule without a previous pattern matches what its pattern describes, whatever the last reply
was. -/
theorem isSome_match?_iff (hwell : r.pattern.WellFormed) (hprevious : r.previous = none)
    (hcompiled : (r.compile Grammar.bundled alternates).isCompiled = true) (hs : '\n' ∉ s)
    (last : Option Text) :
    ((r.compile Grammar.bundled alternates).match? s last).isSome = true ↔
      r.pattern.Describes alternates (Text.tokens s) := by
  rw [match?_compile_isSome_iff]
  constructor
  · rintro ⟨⟨regex, hregex, hmatch⟩, _⟩
    exact (Pattern.isMatch_iff_describes hwell hregex hs).mp hmatch
  · intro h
    obtain ⟨m, hm⟩ := Option.isSome_iff_exists.mp hcompiled
    obtain ⟨regex, hregex, _⟩ := bind_eq_ok_iff.mp (compileMatcher_of_compile hm)
    exact ⟨⟨regex, hregex, (Pattern.isMatch_iff_describes hwell hregex hs).mpr h⟩,
      by simp [hprevious]⟩

section Literal

variable {name : String} {spec : RuleSpec} {last : Option Text}
  (hspec : Rule.ofSpec Grammar.bundled name spec = .ok r) (hliteral : r.pattern.IsLiteral)

include hspec hliteral

/-- The pattern of a literal rule is made of the words of its source. -/
theorem pattern_eq_of_literal :
    r.pattern = (Text.words spec.pattern.toList).map Element.word := by
  obtain ⟨pattern, hpattern, h⟩ := bind_eq_ok_iff.mp hspec
  obtain ⟨previous, _, h⟩ := bind_eq_ok_iff.mp h
  obtain rfl := Except.ok.inj h
  exact Pattern.eq_words_of_parse (mapError_eq_ok_iff.mp hpattern) hliteral

variable (hprevious : r.previous = none)
  (hcompiled : (r.compile Grammar.bundled alternates).isCompiled = true)

include hprevious hcompiled

/-- A rule with a literal pattern matches a message if the tokens of the normalized message are the
words of the pattern. -/
theorem isSome_match?_normalize_iff (message : String) :
    ((r.compile Grammar.bundled alternates).match? (normalize Table.empty message) last).isSome =
        true ↔
      Text.tokens (normalize Table.empty message) = Text.words spec.pattern.toList := by
  obtain ⟨hwell, _⟩ := Rule.of_ofSpec hspec
  rw [isSome_match?_iff hwell hprevious hcompiled newline_not_mem_normalize last,
    pattern_eq_of_literal hspec hliteral, Pattern.describes_words_iff]

/-- A rule with a literal pattern that has a title case letter matches no message. -/
theorem match?_eq_none_of_isTitlecase {c : Char} (hc : c ∈ spec.pattern.toList)
    (htitle : Text.isTitlecase c = true) (last : Option Text) (message : String) :
    (r.compile Grammar.bundled alternates).match? (normalize Table.empty message) last = none := by
  rw [← Option.not_isSome_iff_eq_none,
    isSome_match?_normalize_iff hspec hliteral hprevious hcompiled]
  intro htokens
  obtain ⟨w, hw, hmem⟩ := Text.exists_mem_words (Text.isBlank_of_isTitlecase htitle) hc
  rw [← htokens] at hw
  have hleft := isTitlecase_of_mem_normalize (Text.of_mem_fields hw hmem).1
  rw [htitle] at hleft
  contradiction

end Literal

/-- A rule with a literal pattern matches the text of its pattern exactly if there is no title case
letter in the text. If there is one, the rule matches no message at all. -/
theorem literal_matches_itself_iff {name : String} {spec : RuleSpec}
    (hspec : Rule.ofSpec Grammar.bundled name spec = .ok r) (hliteral : r.pattern.IsLiteral)
    (hprevious : r.previous = none)
    (hcompiled : (r.compile Grammar.bundled alternates).isCompiled = true) (last : Option Text) :
    (((r.compile Grammar.bundled alternates).match? (normalize Table.empty spec.pattern)
        last).isSome = true ↔ ∀ c ∈ spec.pattern.toList, Text.isTitlecase c = false) ∧
    ((∃ c ∈ spec.pattern.toList, Text.isTitlecase c = true) → ∀ message,
      (r.compile Grammar.bundled alternates).match? (normalize Table.empty message) last =
        none) := by
  have hnever {c : Char} (hc : c ∈ spec.pattern.toList) (htitle : Text.isTitlecase c = true) :=
    match?_eq_none_of_isTitlecase hspec hliteral hprevious hcompiled hc htitle last
  refine ⟨⟨fun hsome c hc => ?_, fun htitle => ?_⟩, fun ⟨c, hc, htitle⟩ => hnever hc htitle⟩
  · by_contra htitle
    rw [hnever hc (by simpa using htitle)] at hsome
    contradiction
  · obtain ⟨hwell, _⟩ := Rule.of_ofSpec hspec
    rw [pattern_eq_of_literal hspec hliteral] at hwell
    have hwords := Pattern.isWord_of_wellFormed hwell.2
    have hne : Text.words spec.pattern.toList ≠ [] := by
      obtain ⟨e, he, _⟩ := hwell.1
      exact fun hnil => by simp [hnil] at he
    refine (isSome_match?_normalize_iff hspec hliteral hprevious hcompiled _).mpr
      (tokens_normalize_empty hne fun w hw => ?_)
    refine (Target.group_eq_self_iff (hwords w hw)).mpr fun c hc => ?_
    exact htitle c (Text.of_mem_words hw hc).1

/-- Two words with letters and a number. -/
theorem literal_matches_itself_iff_street :
    let spec : RuleSpec := ⟨"say", "straße 7", "", 0, ⟨.shared "say", []⟩⟩
    ∃ r, Rule.ofSpec Grammar.bundled "test.say" spec = .ok r ∧ r.pattern.IsLiteral ∧
      r.previous = none ∧ (r.compile Grammar.bundled Table.empty).isCompiled = true ∧
      ((r.compile Grammar.bundled Table.empty).match? (normalize Table.empty spec.pattern)
        none).isSome = true := by
  intro spec
  obtain ⟨r, hspec, hliteral, hprevious, hcompiled⟩ :
      ∃ r, Rule.ofSpec Grammar.bundled "test.say" spec = .ok r ∧ r.pattern.IsLiteral ∧
        r.previous = none ∧ (r.compile Grammar.bundled Table.empty).isCompiled = true :=
    ⟨_, by cbv, by simp [Pattern.IsLiteral], rfl, by decide +kernel⟩
  have htitle : ∀ c ∈ spec.pattern.toList, Text.isTitlecase c = false := by
    simpa [spec] using by decide
  exact ⟨r, hspec, hliteral, hprevious, hcompiled,
    (literal_matches_itself_iff hspec hliteral hprevious hcompiled none).1.mpr htitle⟩

/-- The parser takes `ǅ` for a word, but normalization makes `ǆ` of it. -/
theorem literal_never_matches :
    let spec : RuleSpec := ⟨"say", "ǅ", "", 0, ⟨.shared "say", []⟩⟩
    ∃ r, Rule.ofSpec Grammar.bundled "test.say" spec = .ok r ∧ r.pattern.IsLiteral ∧
      r.previous = none ∧ (r.compile Grammar.bundled Table.empty).isCompiled = true ∧
      normalize Table.empty spec.pattern = ['ǆ'] ∧
      (r.compile Grammar.bundled Table.empty).match? (normalize Table.empty spec.pattern) none =
        none := by
  intro spec
  obtain ⟨r, hspec, hliteral, hprevious, hcompiled⟩ :
      ∃ r, Rule.ofSpec Grammar.bundled "test.say" spec = .ok r ∧ r.pattern.IsLiteral ∧
        r.previous = none ∧ (r.compile Grammar.bundled Table.empty).isCompiled = true :=
    ⟨_, by cbv, by simp [Pattern.IsLiteral], rfl, by decide +kernel⟩
  refine ⟨r, hspec, hliteral, hprevious, hcompiled, by decide +kernel, ?_⟩
  exact match?_eq_none_of_isTitlecase hspec hliteral hprevious hcompiled (c := 'ǅ')
    (by decide) (by decide) none spec.pattern

end Rule

end Rejoinder
