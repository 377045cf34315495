import Mathlib
import Rejoinder.Proofs.Engine.Coherence
import Rejoinder.Proofs.Pattern.Locality

/-!
# Adding an alternate

All rules of all topics are compiled again after an alternate has been added. Still the new text is
seen only by rules of its topic that can reach its name. Every other rule is compiled to the same
expressions, and no rule changes its rank (`Reachable.addAlternate_local`).
-/

set_option autoImplicit false

namespace Rejoinder

/-- A rule matches what another one matches, with the same groups. -/
structure Rule.MatchesAs (r r' : Rule) : Prop where
  isCompiled : r.isCompiled = r'.isCompiled
  match? : ∀ message previous, r.match? message previous = r'.match? message previous

/-- Equal rules match alike. -/
theorem Rule.MatchesAs.of_eq {r r' : Rule} (h : r = r') : r.MatchesAs r' := by
  subst h
  exact ⟨rfl, fun _ _ => rfl⟩

namespace Topic

/-- A topic has one more alternate than another one, or another text for it. The rules are the same
and are tried in the same order, but they may be compiled to something else. -/
structure DiffersBy (name value : String) (t t' : Topic) : Prop where
  name_eq : t'.name = t.name
  alternates : t'.alternates = t.alternates.insert name value
  rules : t'.rules.map Rule.uncompiled = t.rules.map Rule.uncompiled
  ranked : t'.ranked.map Rule.uncompiled = t.ranked.map Rule.uncompiled

variable {g : Grammar}

/-- A topic that is not there counts as a new one, and building does nothing to that. -/
theorem getD_map_build (g : Grammar) (t? : Option Topic) (name : String) :
    (t?.map (build g)).getD (new name) = (t?.getD (new name)).build g := by
  cases t? with
  | none => simp [build, new, rank]
  | some t => rfl

/-- The order of the rules without their compiled patterns follows from the ranking. -/
theorem map_uncompiled_ranked (t : Topic) :
    t.ranked.map Rule.uncompiled =
      t.ranking.filterMap fun i => (t.rules.map Rule.uncompiled)[i]? := by
  rw [ranked, List.map_filterMap]
  simp only [List.getElem?_map]

/-- A topic that is built has the same rules, in the same order, as with one more alternate. -/
theorem differsBy_build (g : Grammar) (t : Topic) (name value : String) :
    DiffersBy name value (t.build g) ((t.addAlternate name value).build g) := by
  have hrules : ((t.addAlternate name value).build g).rules.map Rule.uncompiled =
      (t.build g).rules.map Rule.uncompiled := by
    simp only [build, List.map_map]
    rfl
  refine ⟨rfl, rfl, hrules, ?_⟩
  rw [map_uncompiled_ranked, map_uncompiled_ranked, hrules]
  rfl

/-- A rule that cannot reach the name is compiled as before, and so is a rule that has been compiled
without the name. -/
theorem matchesAs_of_build (hg : g.DrawsOnReferences) (t : Topic) {name : String} (value : String)
    {i : Nat} {r r' : Rule} (hr : (t.build g).rules[i]? = some r)
    (hr' : ((t.addAlternate name value).build g).rules[i]? = some r')
    (h : ¬ r.Reaches t.alternates name ∨
      t.alternates.contains name = false ∧ r.isCompiled = true) : r'.MatchesAs r := by
  rw [build, List.getElem?_map, Option.map_eq_some_iff] at hr hr'
  obtain ⟨source, hsource, rfl⟩ := hr
  obtain ⟨source', hsource', rfl⟩ := hr'
  obtain rfl := Option.some.inj (hsource.symm.trans hsource')
  refine Rule.MatchesAs.of_eq ?_
  rcases h with hfree | ⟨hnew, hcompiled⟩
  · exact Rule.compile_insert hg hfree value
  · exact Rule.compile_insert_of_isCompiled hg hnew hcompiled value

end Topic

namespace Engine

variable {config : Config} {grammar : Grammar} {e : Engine}

/-- After an alternate has been added to a topic and everything has been built, all other topics are
what they are without it. The topic itself, which is new if there was none, has the same rules in
the same order. A rule of it is compiled exactly if it is without the alternate, and matches the
same, if neither of its patterns can reach the name, or if the name is new and the rule is compiled
without it.

The last part is for grammars that look at alternates only where patterns refer to them. The bundled
grammar is one, and so is every grammar that only gives some patterns other expressions or
scores. -/
theorem Reachable.addAlternate_local (h : Reachable config grammar e)
    (topic name value : String) :
    (∀ other, other ≠ topic → (e.addAlternate topic name value).buildCache.topics.get? other =
      e.buildCache.topics.get? other) ∧
    (∃ t t', (e.buildCache.topics.get? topic).getD (Topic.new topic) = t ∧
      (e.addAlternate topic name value).buildCache.topics.get? topic = some t' ∧
      t.DiffersBy name value t' ∧
      (grammar.DrawsOnReferences → ∀ (i : Nat) (r r' : Rule),
        t.rules[i]? = some r → t'.rules[i]? = some r' →
        ¬ r.Reaches t.alternates name ∨
          t.alternates.contains name = false ∧ r.isCompiled = true → r'.MatchesAs r)) ∧
    Grammar.bundled.DrawsOnReferences ∧
    ∀ g : Grammar, g.DrawsOnReferences → ∀ bodies scores,
      (g.withBodies bodies).DrawsOnReferences ∧ (g.withScores scores).DrawsOnReferences := by
  have hafter (other : String) :=
    (h.coherent.addAlternate topic name value).get?_buildCache other
  refine ⟨?_, ?_, Grammar.drawsOnReferences_bundled,
    fun g hg bodies scores => ⟨hg.withBodies bodies, hg.withScores scores⟩⟩
  · intro other hother
    rw [hafter, h.coherent.get?_buildCache, addAlternate, Table.get?_insert, if_neg hother]
  · let t := (e.topics.get? topic).getD (Topic.new topic)
    refine ⟨t.build grammar, (t.addAlternate name value).build grammar, ?_, ?_,
      Topic.differsBy_build grammar t name value,
      fun hg i r r' hr hr' => Topic.matchesAs_of_build hg t value hr hr'⟩
    · rw [h.coherent.get?_buildCache, Topic.getD_map_build]
    · rw [hafter, addAlternate, Table.get?_insert, if_pos rfl]
      rfl

/-- A rule without references keeps matching after a text that is no pattern has been put in the
place of an alternate of its topic. -/
theorem addAlternate_local_greetings :
    let e := ((withGrammar .default .bundled).performAll [.load .greetings]).2
    Reachable .default .bundled e ∧ ∃ t t' r r',
      e.buildCache.topics.get? defaultTopic = some t ∧
      (e.addAlternate defaultTopic "colors" "(black").buildCache.topics.get? defaultTopic =
        some t' ∧
      t.alternates.contains "colors" = true ∧ t.rules[1]? = some r ∧ t'.rules[1]? = some r' ∧
      r'.MatchesAs r := by
  intro e
  have he : Reachable .default .bundled e := Reachable.start.performAll _
  obtain ⟨_, ⟨t, t', ht, ht', hdiffers, hmatches⟩, hbundled, _⟩ :=
    he.addAlternate_local defaultTopic "colors" "(black"
  have hloaded : (e.topics.get? defaultTopic).map (fun t =>
      (t.alternates.contains "colors", (t.rules[1]?).map fun r =>
        (r.pattern.references, r.previous.isNone))) = some (true, some ([], true)) := by
    decide +kernel
  obtain ⟨source, hsource, hparts⟩ := Option.map_eq_some_iff.mp hloaded
  obtain ⟨hcontains, hrule⟩ := Prod.mk.inj hparts
  obtain ⟨rule, hplace, hpatterns⟩ := Option.map_eq_some_iff.mp hrule
  obtain ⟨hreferences, hprevious⟩ := Prod.mk.inj hpatterns
  have hbefore : e.buildCache.topics.get? defaultTopic = some (source.build .bundled) := by
    rw [he.coherent.get?_buildCache, hsource]
    rfl
  rw [hbefore] at ht
  obtain rfl : source.build .bundled = t := ht
  have hr : (source.build .bundled).rules[1]? = some (rule.compile .bundled source.alternates) := by
    rw [Topic.build, List.getElem?_map, hplace]
    rfl
  have hr' : t'.rules[1]?.map Rule.uncompiled = some rule.uncompiled := by
    rw [← List.getElem?_map, hdiffers.rules, List.getElem?_map, hr]
    rfl
  obtain ⟨r', hr', _⟩ := Option.map_eq_some_iff.mp hr'
  refine ⟨he, _, t', _, r', hbefore, ht', hcontains, hr, hr', hmatches hbundled 1 _ _ hr hr' ?_⟩
  left
  rintro (⟨first, hfirst, _⟩ | ⟨p, hp, _⟩)
  · have hnone : first ∉ rule.pattern.references := by simp [hreferences]
    exact hnone hfirst
  · have hnone : rule.previous = none := Option.isNone_iff_eq_none.mp hprevious
    have hsome : rule.previous = some p := hp
    rw [hnone] at hsome
    contradiction

end Engine

end Rejoinder
