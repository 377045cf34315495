import Mathlib
import Rejoinder.Proofs.Pattern.Meaning

/-!
# Scores and shortest messages

The score of a pattern is a lower bound: no message that the pattern describes has fewer tokens
(`Describes.score_le`). A literal word is one token, and a reference stands for one at least, since
the alternate that it names is a pattern and no pattern describes a message without tokens.

Without wildcards and references the bound is met. The derivation of such a pattern tells which
message to take: in every choice a branch with the smallest score, and no optional part.

The same derivations show that a score is at most the number of tokens with which its pattern is
written.
-/

set_option autoImplicit false

namespace Rejoinder

/-- Whether a token means only itself: it is neither a wildcard nor a reference. -/
def Token.isPlain : Token → Bool
  | .star => false
  | .underscore => false
  | .reference _ => false
  | _ => true

namespace Pattern

variable {alternates : Alternates} {b p : Pattern} {bs : List Pattern} {ws : List Text}

/-! ## Branches -/

/-- The scores of branches are those of each of them. -/
theorem branchScores_eq_map (bs : List Pattern) : branchScores bs = bs.map totalScore := by
  induction bs with
  | nil => rfl
  | cons b bs ih => rw [branchScores, ih, List.map_cons]

/-- No branch has a score below that of the choice. -/
theorem min_branchScores_le (h : b ∈ bs) :
    (branchScores bs).min?.getD 0 ≤ totalScore b := by
  have hmem : totalScore b ∈ branchScores bs := by
    rw [branchScores_eq_map]
    exact List.mem_map_of_mem h
  exact List.min?_getD_le_of_mem hmem

/-- A branch of well-formed branches is well-formed. -/
theorem wellFormed_of_mem (hbs : branchesWellFormed bs) (h : b ∈ bs) : b.WellFormed := by
  induction bs with
  | nil => simp at h
  | cons b' bs ih =>
    rcases List.mem_cons.mp h with rfl | h
    · exact hbs.1
    · exact ih hbs.2 h

/-! ## No message is shorter -/

/-- A required element that does not come first comes later, if the first one is optional. -/
theorem HasRequired.of_optional {body : Pattern} (h : HasRequired (.optional body :: p)) :
    p.HasRequired := by
  obtain ⟨e, he, hreq⟩ := h
  rcases List.mem_cons.mp he with rfl | he
  · simp [Element.isRequired] at hreq
  · exact ⟨e, he, hreq⟩

/-- Something is there in every message that a well-formed pattern describes. -/
theorem Describes.ne_nil (h : p.Describes alternates ws) (hp : p.WellFormed) : ws ≠ [] := by
  induction h with
  | nil =>
    obtain ⟨e, he, _⟩ := hp.1
    simp at he
  | word => simp
  | anyWord => simp
  | anyWords hsome => simp [hsome]
  | choice hmem _ _ ih => simp [ih (wellFormed_of_mem hp.2.1.2 hmem)]
  | skip _ ih => exact ih ⟨hp.1.of_optional, hp.2.2⟩
  | take _ _ ih => simp [ih hp.2.1]
  | reference _ hparsed _ _ ih =>
    simp [ih (wellFormed_of_parse (mapError_eq_ok_iff.mpr hparsed))]

/-- A message that a pattern describes has at least as many tokens as the score asks for. -/
theorem Describes.score_le (h : p.Describes alternates ws) (hp : elementsWellFormed p) :
    totalScore p ≤ ws.length := by
  induction h with
  | nil => simp [totalScore]
  | word _ ih =>
    have hrest := ih hp.2
    simp only [totalScore, elementScore, List.length_cons]
    omega
  | anyWord _ _ ih =>
    have hrest := ih hp.2
    simp only [totalScore, elementScore, List.length_cons]
    omega
  | anyWords _ _ _ ih =>
    have hrest := ih hp.2
    simp only [totalScore, elementScore, List.length_append]
    omega
  | choice hmem _ _ ihb ih =>
    have hbranch := ihb (wellFormed_of_mem hp.1.2 hmem).2
    have hcheapest := min_branchScores_le hmem
    have hrest := ih hp.2
    simp only [totalScore, elementScore, List.length_append]
    omega
  | skip _ ih =>
    have hrest := ih hp.2
    simp only [totalScore, elementScore]
    omega
  | take _ _ _ ih =>
    have hrest := ih hp.2
    simp only [totalScore, elementScore, List.length_append]
    omega
  | reference _ hparsed htaken _ _ ih =>
    -- A reference counts one, and what parses describes one token or more.
    have hsome := htaken.ne_nil (wellFormed_of_parse (mapError_eq_ok_iff.mpr hparsed))
    have hpos := List.length_pos_iff.mpr hsome
    have hrest := ih hp.2
    simp only [totalScore, elementScore, List.length_append]
    omega

end Pattern

/-! ## Phrases -/

namespace Phrase

open Pattern

variable {ph : Phrase} {ts : List Token}

/-- The score of a phrase. -/
def score : Phrase → Nat
  | element e => elementScore e
  | elements es => totalScore es
  | sequence p => totalScore p
  | branches bs => (branchScores bs).min?.getD 0

/-- The words are described by the phrase: an element brings them in front of what the pattern
behind it describes, and of several branches one describes them. -/
def Describes (alternates : Alternates) (ws : List Text) : Phrase → Prop
  | element e => ∀ p vs, Pattern.Describes alternates p vs →
      Pattern.Describes alternates (e :: p) (ws ++ vs)
  | elements es => Pattern.Describes alternates es ws
  | sequence p => p.Describes alternates ws
  | branches bs => ∃ b ∈ bs, Pattern.Describes alternates b ws

/-- A branch before others has the smallest score, or one of the others does. -/
theorem score_branches_cons {b : Pattern} {bs : List Pattern} (h : bs ≠ []) :
    (branches (b :: bs)).score = min (sequence b).score (branches bs).score := by
  obtain ⟨c, bs, rfl⟩ := List.exists_cons_of_ne_nil h
  simp [score, branchScores, List.min?_cons]

/-- Derived branches are not empty. -/
theorem Derives.branches_ne_nil {bs : List Pattern} (h : (branches bs).Derives ts) : bs ≠ [] := by
  cases h <;> simp

/-- A phrase is written with at least as many tokens as its score says. -/
theorem Derives.score_le_length (h : ph.Derives ts) : ph.score ≤ ts.length := by
  induction h with
  | word | anyWords | anyWord | reference => simp [score, elementScore]
  | choice _ ih =>
    simp only [score, elementScore, List.length_cons, List.length_append] at ih ⊢
    omega
  | optional => simp [score, elementScore]
  | nil => simp [score, totalScore]
  | cons _ _ ihe ihes =>
    simp only [score, totalScore, List.length_append] at ihe ihes ⊢
    omega
  | sequence _ _ ih => exact ih
  | lastBranch _ ih => simpa [score, branchScores] using ih
  | branch _ hbs ihp _ =>
    rw [score_branches_cons hbs.branches_ne_nil, List.length_append]
    omega

/-- A phrase without wildcards and references describes as many of its words as its score says. -/
theorem Derives.exists_shortest (alternates : Alternates) (h : ph.Derives ts)
    (hplain : ∀ t ∈ ts, t.isPlain = true) :
    ∃ ws, ph.Describes alternates ws ∧ ws.length = ph.score ∧ ∀ w ∈ ws, Token.word w ∈ ts := by
  induction h with
  | word letters => exact ⟨[letters], fun _ _ hrest => .word hrest, rfl, by simp⟩
  | anyWords => simp [Token.isPlain] at hplain
  | anyWord => simp [Token.isPlain] at hplain
  | reference name => simp [Token.isPlain] at hplain
  | choice _ ih =>
    obtain ⟨ws, ⟨b, hb, hws⟩, hlength, hmem⟩ := ih fun t ht => hplain t (by simp [ht])
    exact ⟨ws, fun _ _ hrest => .choice hb hws hrest, hlength, fun w hw => by simp [hmem w hw]⟩
  | optional => exact ⟨[], fun _ _ hrest => .skip hrest, rfl, by simp⟩
  | nil => exact ⟨[], .nil, rfl, by simp⟩
  | cons _ _ ihe ihes =>
    obtain ⟨vs, hvs, hvlength, hvmem⟩ := ihe fun t ht => hplain t (by simp [ht])
    obtain ⟨ws, hws, hwlength, hwmem⟩ := ihes fun t ht => hplain t (by simp [ht])
    refine ⟨vs ++ ws, hvs _ _ hws, ?_, fun w hw => ?_⟩
    · rw [List.length_append, hvlength, hwlength]
      rfl
    · rcases List.mem_append.mp hw with hw | hw
      · exact List.mem_append_left _ (hvmem w hw)
      · exact List.mem_append_right _ (hwmem w hw)
  | sequence _ _ ih => exact ih hplain
  | lastBranch _ ih =>
    obtain ⟨ws, hws, hlength, hmem⟩ := ih hplain
    exact ⟨ws, ⟨_, by simp, hws⟩, by rw [hlength]; simp [score, branchScores], hmem⟩
  | branch _ hbs ihp ihbs =>
    obtain ⟨vs, hvs, hvlength, hvmem⟩ := ihp fun t ht => hplain t (by simp [ht])
    obtain ⟨ws, ⟨b, hb, hws⟩, hwlength, hwmem⟩ := ihbs fun t ht => hplain t (by simp [ht])
    rw [score_branches_cons hbs.branches_ne_nil]
    -- the branch or the best one behind it, whichever has the smaller score
    rcases le_total vs.length ws.length with hle | hle
    · exact ⟨vs, ⟨_, List.mem_cons_self, hvs⟩, by omega, fun w hw => by simp [hvmem w hw]⟩
    · exact ⟨ws, ⟨b, List.mem_cons_of_mem _ hb, hws⟩, by omega, fun w hw => by simp [hwmem w hw]⟩

end Phrase

/-! ## The shortest match -/

/-- The score of a pattern is the number of tokens in the shortest messages that its expression
matches, as far as it can be told without knowing what wildcards and references stand for. -/
theorem Pattern.score_bounds_tokens {source : String} {p : Pattern} {ls : List Lexeme}
    {alternates : Alternates} {regex : Regex} (hparse : Grammar.bundled.parse source = .ok p)
    (hscan : Token.scan 0 source.toList = .ok ls)
    (hcompile : Grammar.bundled.compile alternates p = .ok regex) :
    Grammar.bundled.score p ≤ ls.length ∧
    (∀ s, '\n' ∉ s → regex.isMatch s = true →
      Grammar.bundled.score p ≤ (Text.tokens s).length) ∧
    ((∀ l ∈ ls, l.token.isPlain = true) →
      ∃ s, '\n' ∉ s ∧ regex.isMatch s = true ∧
        (Text.tokens s).length = Grammar.bundled.score p) := by
  have hwell := wellFormed_of_parse hparse
  obtain ⟨ls', hscan', hderives⟩ := (bundled_parse_eq_ok_iff source p).mp hparse
  obtain rfl := Except.ok.inj (hscan.symm.trans hscan')
  refine ⟨?_, fun s hs hmatch => ?_, fun hplain => ?_⟩
  · have hle := hderives.score_le_length
    rwa [List.length_map] at hle
  · exact ((isMatch_iff_describes hwell hcompile hs).mp hmatch).score_le hwell.2
  · obtain ⟨ws, hws, hlength, hmem⟩ := hderives.exists_shortest alternates (by simpa using hplain)
    have hwords : ∀ w ∈ ws, Token.IsWord w := by
      intro w hw
      obtain ⟨l, hl, hword⟩ := List.mem_map.mp (hmem w hw)
      have hvalid := Token.valid_of_scan hscan l hl
      rw [hword] at hvalid
      exact hvalid
    have htokens : Text.tokens (Text.unwords ws) = ws :=
      Text.tokens_unwords (hws.ne_nil hwell) fun w hw => (hwords w hw).not_mem (by decide)
    have hline : '\n' ∉ Text.unwords ws := by
      intro hmem
      obtain ⟨w, hw, hmem⟩ := (Text.mem_of_mem_unwords hmem).resolve_left (by decide)
      exact (hwords w hw).not_mem (by decide) hmem
    refine ⟨Text.unwords ws, hline, ?_, by rw [htokens, hlength]; rfl⟩
    rw [isMatch_iff_describes hwell hcompile hline, htokens]
    exact hws

/-- A choice of two words or one, and an optional part. -/
theorem Pattern.score_bounds_tokens_sing :
    ∃ p ls regex, Grammar.bundled.parse "please (say it|sing) [now]" = .ok p ∧
      Token.scan 0 "please (say it|sing) [now]".toList = .ok ls ∧
      Grammar.bundled.compile Table.empty p = .ok regex ∧ Grammar.bundled.score p = 2 ∧
      2 ≤ ls.length ∧
      (∀ s, '\n' ∉ s → regex.isMatch s = true → 2 ≤ (Text.tokens s).length) ∧
      ∃ s, '\n' ∉ s ∧ regex.isMatch s = true ∧ (Text.tokens s).length = 2 := by
  obtain ⟨p, hparse, hscore, hcompiles⟩ :
      ∃ p, Grammar.bundled.parse "please (say it|sing) [now]" = .ok p ∧
        Grammar.bundled.score p = 2 ∧
        (Grammar.bundled.compile Table.empty p).toOption.isSome = true :=
    ⟨_, by cbv, rfl, by decide +kernel⟩
  obtain ⟨ls, hscan, hplain⟩ :
      ∃ ls, Token.scan 0 "please (say it|sing) [now]".toList = .ok ls ∧
        ∀ l ∈ ls, l.token.isPlain = true :=
    ⟨_, by cbv, by decide⟩
  cases hcompile : Grammar.bundled.compile Table.empty p with
  | error e => simp [hcompile, Except.toOption] at hcompiles
  | ok regex =>
    obtain ⟨hwritten, hleast, hmet⟩ := score_bounds_tokens hparse hscan hcompile
    rw [hscore] at hwritten hleast hmet
    exact ⟨p, ls, regex, hparse, hscan, hcompile, hscore, hwritten, hleast, hmet hplain⟩

end Rejoinder
