import Rejoinder.Proofs.Engine.Answer
import Rejoinder.Proofs.Engine.Coherence

/-!
# Which rule answers

A rule answers a message if its pattern compiles and matches the message, and if its previous
pattern, where it has one, compiles too and matches the last reply, which has to exist
(`Rule.Answers`). This is said of the patterns and the alternates alone: no cache occurs in it, and
no order. The best of the rules that answer is the one that precedes all the others
(`Topic.IsBest`).

`Reachable.answer_of_best` says that the reply to a message is made by the best rule. The engine
goes through the rules in the order in which they were ranked when the cache was built, and takes
the first one whose compiled patterns match. That this is the best rule rests on the cache being
coherent, and on the rules being sorted without ties.
-/

set_option autoImplicit false

namespace Rejoinder

/-! ## The rule that is found first -/

section FirstMatch

variable {message : Text} {previous : Option Text} {rules : List Rule}

/-- Where no rule is found, none matches. -/
theorem match?_eq_none_of_firstMatch_eq_none (h : firstMatch message previous rules = none) :
    ∀ r ∈ rules, r.match? message previous = none := by
  induction rules with
  | nil => simp
  | cons r rest ih =>
    rw [firstMatch] at h
    split at h
    · contradiction
    · rename_i hnone
      have hrest := Option.map_eq_none_iff.mp h
      exact List.forall_mem_cons.mpr ⟨hnone, ih hrest⟩

/-- What is found first is a rule that matches, and none before it does. -/
theorem exists_of_firstMatch_eq_some {considered : Nat} {rule : Rule} {groups : Groups}
    (h : firstMatch message previous rules = some (considered, rule, groups)) :
    ∃ k, considered = k + 1 ∧ rules[k]? = some rule ∧
      rule.match? message previous = some groups ∧
      ∀ j < k, ∀ r, rules[j]? = some r → r.match? message previous = none := by
  induction rules generalizing considered with
  | nil => simp [firstMatch] at h
  | cons r rest ih =>
    rw [firstMatch] at h
    split at h
    · rename_i groups' hmatch
      obtain ⟨rfl, rfl, rfl⟩ : 1 = considered ∧ r = rule ∧ groups' = groups := by simpa using h
      exact ⟨0, rfl, rfl, hmatch, fun j hj => absurd hj (Nat.not_lt_zero j)⟩
    · rename_i hnone
      obtain ⟨⟨place, rule', groups'⟩, hrest, heq⟩ := Option.map_eq_some_iff.mp h
      obtain ⟨rfl, rfl, rfl⟩ : place + 1 = considered ∧ rule' = rule ∧ groups' = groups := by
        simpa using heq
      obtain ⟨k, rfl, hplace, hmatch, hbefore⟩ := ih hrest
      refine ⟨k + 1, rfl, hplace, hmatch, ?_⟩
      intro j hj r' hr'
      cases j with
      | zero =>
        obtain rfl := Option.some.inj hr'
        exact hnone
      | succ j => exact hbefore j (Nat.lt_of_succ_lt_succ hj) r' hr'

end FirstMatch

/-! ## The rules that answer -/

/-- The patterns of a rule compile, its pattern matches the message, and its previous pattern, if it
has one, matches the last reply, if there is one. -/
structure Rule.Answers (g : Grammar) (alternates : Alternates) (message : Text)
    (previous : Option Text) (r : Rule) : Prop where
  pattern : ∃ regex, g.compile alternates r.pattern = .ok regex ∧ regex.isMatch message = true
  previous : ∀ p, r.previous = some p → ∃ regex, g.compile alternates p = .ok regex ∧
    ∃ text, previous = some text ∧ regex.isMatch text = true

/-- The rule at a place answers, and it precedes all others that do. -/
structure Topic.IsBest (g : Grammar) (message : Text) (previous : Option Text) (t : Topic)
    (i : Nat) (r : Rule) : Prop where
  rule : t.rules[i]? = some r
  answers : r.Answers g t.alternates message previous
  precedes : ∀ j r', t.rules[j]? = some r' → r'.Answers g t.alternates message previous →
    j ≠ i → Topic.Precedes t.rules i j

section Answers

variable {g : Grammar} {alternates : Alternates} {message : Text} {previous : Option Text}

/-- A compiled rule matches a message exactly if it allows the previous reply and its expression
matches. -/
theorem Rule.match?_isSome_iff_allows {r : Rule} {m : Matcher} (hm : r.matcher = some m) :
    (r.match? message previous).isSome = true ↔
      Matcher.allows m previous = true ∧ m.pattern.isMatch message = true := by
  rw [match?, hm]
  by_cases hallows : Matcher.allows m previous = true
  · simp only [Option.bind_eq_bind, Option.bind_some, hallows, true_and, Regex.isMatch]
    cases m.pattern.find? message <;> simp
  · simp [hallows]

/-- A rule without a previous pattern allows any previous reply, and one with it those that match
it. -/
theorem Rule.allows_iff {m : Matcher} :
    Matcher.allows m previous = true ↔ ∀ regex, m.previous = some regex →
      ∃ text, previous = some text ∧ regex.isMatch text = true := by
  obtain ⟨pattern, compiled⟩ := m
  cases compiled with
  | none => simp [Matcher.allows]
  | some regex => cases previous <;> simp [Matcher.allows]

/-- A compiled rule matches if the rule answers. -/
theorem Rule.match?_compile_isSome_iff {r : Rule} :
    ((r.compile g alternates).match? message previous).isSome = true ↔
      r.Answers g alternates message previous := by
  constructor
  · intro h
    cases hcompile : r.compileMatcher g alternates with
    | error error =>
      -- A rule that does not compile has no matcher, so it cannot have matched.
      have hnone : (r.compile g alternates).matcher = none := by
        rw [Rule.compile, hcompile]
        rfl
      rw [Rule.match?, hnone] at h
      contradiction
    | ok m =>
      have hm : (r.compile g alternates).matcher = some m := by
        rw [Rule.compile, hcompile]
        rfl
      obtain ⟨hallows, hmatch⟩ := (match?_isSome_iff_allows hm).mp h
      obtain ⟨hpattern, hprevious⟩ := compileMatcher_eq_ok_iff.mp hcompile
      refine ⟨⟨m.pattern, hpattern, hmatch⟩, ?_⟩
      intro p hp
      rw [hp, mapM_previous_eq_ok_iff] at hprevious
      obtain ⟨habsurd, _⟩ | ⟨q, regex, hq, hregex, hcompiled⟩ := hprevious
      · contradiction
      · obtain rfl := Option.some.inj hq
        exact ⟨regex, hregex, allows_iff.mp hallows regex hcompiled⟩
  · rintro ⟨⟨regex, hregex, hmatch⟩, hprevious⟩
    obtain ⟨compiled, hcompiled, hallows⟩ : ∃ compiled,
        r.previous.mapM (g.compile alternates) = .ok compiled ∧
          Matcher.allows ⟨regex, compiled⟩ previous = true := by
      cases hp : r.previous with
      | none => exact ⟨none, rfl, rfl⟩
      | some p =>
        obtain ⟨regex', hregex', htext⟩ := hprevious p hp
        refine ⟨some regex', mapM_previous_eq_ok_iff.mpr (.inr ⟨p, regex', rfl, hregex', rfl⟩), ?_⟩
        refine allows_iff.mpr ?_
        rintro _ ⟨⟩
        exact htext
    have hok : r.compileMatcher g alternates = .ok ⟨regex, compiled⟩ :=
      compileMatcher_eq_ok_iff.mpr ⟨hregex, hcompiled⟩
    have hm : (r.compile g alternates).matcher = some ⟨regex, compiled⟩ := by
      rw [Rule.compile, hok]
      rfl
    exact (match?_isSome_iff_allows hm).mpr ⟨hallows, hmatch⟩

/-- A compiled rule does not match if the rule does not answer. -/
theorem Rule.match?_compile_eq_none_iff {r : Rule} :
    (r.compile g alternates).match? message previous = none ↔
      ¬ r.Answers g alternates message previous := by
  rw [← match?_compile_isSome_iff, Bool.not_eq_true, Option.isSome_eq_false_iff,
    Option.isNone_iff_eq_none]

end Answers

namespace Topic

variable {g : Grammar} {message : Text} {previous : Option Text} {t : Topic}

/-- If no rule is found in a topic that has been built, no rule of the topic answers. -/
theorem not_answers_of_firstMatch_eq_none
    (h : firstMatch message previous (t.build g).ranked = none) :
    ∀ r ∈ t.rules, ¬ r.Answers g t.alternates message previous := by
  intro r hr
  obtain ⟨i, hi, hget⟩ := List.mem_iff_getElem.mp hr
  have hmem : i ∈ rank t.rules := (perm_rank t.rules).mem_iff.mpr (List.mem_range.mpr hi)
  obtain ⟨k, hk⟩ := List.mem_iff_getElem?.mp hmem
  have hrule : t.rules[i]? = some r := List.getElem?_eq_some_iff.mpr ⟨hi, hget⟩
  have hranked : (t.build g).ranked[k]? = some (r.compile g t.alternates) :=
    getElem?_ranked_build_eq_some_iff.mpr ⟨i, r, hk, hrule, rfl⟩
  exact Rule.match?_compile_eq_none_iff.mp
    (match?_eq_none_of_firstMatch_eq_none h _ (List.mem_of_getElem? hranked))

/-- What is found first in a topic that has been built is the best rule, at its place in the
ranking. -/
theorem isBest_of_firstMatch_eq_some {considered : Nat} {rule : Rule} {groups : Groups}
    (h : firstMatch message previous (t.build g).ranked = some (considered, rule, groups)) :
    ∃ i r k, considered = k + 1 ∧ (rank t.rules)[k]? = some i ∧ t.IsBest g message previous i r ∧
      rule = r.compile g t.alternates ∧ rule.match? message previous = some groups := by
  obtain ⟨k, hconsidered, hplace, hmatch, hbefore⟩ := exists_of_firstMatch_eq_some h
  obtain ⟨i, r, hk, hrule, rfl⟩ := getElem?_ranked_build_eq_some_iff.mp hplace
  have hanswers : r.Answers g t.alternates message previous := by
    rw [← Rule.match?_compile_isSome_iff, hmatch]
    rfl
  refine ⟨i, r, k, hconsidered, hk, ⟨hrule, hanswers, ?_⟩, rfl, hmatch⟩
  intro j r' hr' hanswers' hne
  obtain ⟨hj, -⟩ := List.getElem?_eq_some_iff.mp hr'
  have hmem : j ∈ rank t.rules := (perm_rank t.rules).mem_iff.mpr (List.mem_range.mpr hj)
  obtain ⟨l, hl⟩ := List.mem_iff_getElem?.mp hmem
  -- The other rule stands behind this one in the ranking, since what stands before does not answer.
  have hbehind : k < l := by
    rcases Nat.lt_trichotomy l k with hlt | rfl | hlt
    · have hranked : (t.build g).ranked[l]? = some (r'.compile g t.alternates) :=
        getElem?_ranked_build_eq_some_iff.mpr ⟨j, r', hl, hr', rfl⟩
      exact absurd hanswers' (Rule.match?_compile_eq_none_iff.mp (hbefore l hlt _ hranked))
    · exact absurd (Option.some.inj (hl.symm.trans hk)) hne
    · exact hlt
  obtain ⟨hk', hik⟩ := List.getElem?_eq_some_iff.mp hk
  obtain ⟨hl', hjl⟩ := List.getElem?_eq_some_iff.mp hl
  have hprecedes :=
    List.pairwise_iff_getElem.mp (pairwise_precedes_rank t.rules) k l hk' hl' hbehind
  rwa [hik, hjl] at hprecedes

end Topic

/-! ## The best rule makes the reply -/

namespace Engine

variable {config : Config} {grammar : Grammar} {e : Engine}

/-- In a coherent engine the rules that are gone through are those of the default topic, built. -/
theorem Coherent.candidates_scanned (h : Coherent grammar e) {t : Topic}
    (ht : e.topics.get? defaultTopic = some t) (user message : String) :
    (e.scanned user message).candidates = (t.build grammar).ranked := by
  -- Meeting the user comes before building, and leaves the rules and the cache as they are.
  have hmet : Coherent grammar ((e.emit (.asked user message)).meet user) :=
    h.congr (by simp) (by simp) (by simp)
  have hbuilt := hmet.get?_buildCache defaultTopic
  rw [topics_meet, topics_emit, ht] at hbuilt
  rw [candidates, topic?, Engine.scanned, topics_emit, hbuilt]
  rfl

/-- Below the depth limit, the reply to a message is decided by the rules of the default topic that
answer the normalized message. If there is none, the reply is empty and all rules have been tried.
Otherwise the handler of the best of them is run, once, and no other one is run in its place if it
fails; the number of rules that were tried is the place of the best rule in the ranking of all
rules. -/
theorem Reachable.answer_of_best (h : Reachable config grammar e) (user message : String)
    {depth : Nat} (hdepth : depth < e.config.depthLimit) :
    ∃ t, e.topics.get? defaultTopic = some t ∧
      let target := normalize e.config.substitutions message
      let previous := e.previousOf user
      ((∀ r ∈ t.rules, ¬ r.Answers grammar t.alternates target previous) ∧
          e.answer user depth message =
            (⟨"", String.ofList target, none, t.rules.length, depth, .noMatch⟩,
              (e.scanned user message).conclude user depth "")) ∨
        ∃ i r k places groups, t.IsBest grammar target previous i r ∧
          Topic.IsRanking t.rules places ∧ places[k]? = some i ∧
          (r.compile grammar t.alternates).match? target previous = some groups ∧
          e.answer user depth message =
            match run (answerText user (depth + 1)) ⟨user, depth, groups⟩
              ((e.scanned user message).emit (.matched r.name)) "" r.handler.program with
            | (.ok reply, e') =>
              (⟨reply, String.ofList target, some r.name, k + 1, depth, .replied⟩,
                e'.conclude user depth reply)
            | (.error error, e') =>
              (⟨"", String.ofList target, some r.name, k + 1, depth, .handlerFailed⟩,
                (e'.emit (.handlerFailed r.name error)).conclude user depth "") := by
  obtain ⟨t, ht⟩ := h.coherent.hasDefault
  have hcandidates := h.coherent.candidates_scanned ht user message
  have hselection : e.selection user message =
      firstMatch (normalize e.config.substitutions message) (e.previousOf user)
        (t.build grammar).ranked := by
    rw [selection, hcandidates, previousOf_scanned]
  refine ⟨t, ht, ?_⟩
  cases hfound : e.selection user message with
  | none =>
    left
    have hnone := Topic.not_answers_of_firstMatch_eq_none (hselection.symm.trans hfound)
    refine ⟨hnone, ?_⟩
    rw [answer_of_selection_eq_none hdepth hfound, hcandidates, Topic.length_ranked_build]
  | some found =>
    right
    obtain ⟨considered, rule, groups⟩ := found
    obtain ⟨i, r, k, rfl, hplace, hbest, rfl, hgroups⟩ :=
      Topic.isBest_of_firstMatch_eq_some (hselection.symm.trans hfound)
    have hranking : Topic.IsRanking t.rules (Topic.rank t.rules) :=
      (Topic.isRanking_iff_eq_rank _ _).mpr rfl
    have hanswer := answer_of_selection_eq_some hdepth hfound
    exact ⟨i, r, k, Topic.rank t.rules, groups, hbest, hranking, hplace, hgroups, hanswer⟩

/-- Both rules answer, and the one that was registered later weighs more. -/
theorem answer_of_best_greetings :
    let e := ((withGrammar .default .bundled).performAll [.load .greetings]).2
    Reachable .default .bundled e ∧ 0 < e.config.depthLimit ∧
      (e.answer "ann" 0 "Hello you!").1.rule = some "hello.one" := by
  intro e
  have he : Reachable .default .bundled e := Reachable.start.performAll _
  have hdepth : 0 < e.config.depthLimit := by decide +kernel
  refine ⟨he, hdepth, ?_⟩
  obtain ⟨t, ht, hanswer⟩ := he.answer_of_best "ann" "Hello you!" hdepth
  have hrules : (e.topics.get? defaultTopic).map (fun t => t.rules.map fun r =>
      (r.name, r.weight, ((r.compile .bundled t.alternates).match?
        (normalize e.config.substitutions "Hello you!") (e.previousOf "ann")).isSome)) =
      some [("hello.any", 0, true), ("hello.one", 1, true)] := by
    decide +kernel
  rw [ht, Option.map_some, Option.some.injEq] at hrules
  obtain ⟨any, one, hpair⟩ : ∃ any one, t.rules = [any, one] :=
    List.length_eq_two.mp (by simpa using congrArg List.length hrules)
  simp only [hpair, List.map_cons, List.map_nil, List.cons.injEq, Prod.mk.injEq, and_true] at hrules
  obtain ⟨⟨-, hlight, -⟩, hname, hheavy, hone⟩ := hrules
  rw [Rule.match?_compile_isSome_iff] at hone
  obtain ⟨hnone, -⟩ | ⟨i, r, k, places, groups, hbest, -, -, -, hresult⟩ := hanswer
  · exact absurd hone (hnone one (by simp [hpair]))
  · have hsecond : r = one := by
      have hrule := hbest.rule
      have hprecedes := hbest.precedes 1 one (by simp [hpair]) hone
      rw [hpair] at hrule hprecedes
      match i with
      | 0 =>
        have hweight := hprecedes (by decide) any one rfl rfl
        omega
      | 1 => exact (Option.some.inj hrule).symm
      | i + 2 => simp at hrule
    subst hsecond
    rw [hresult]
    split <;> simp [hname]

end Engine

end Rejoinder
