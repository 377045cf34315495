import Rejoinder.Proofs.Engine.Loading
import Rejoinder.Proofs.Engine.Reachable
import Rejoinder.Proofs.Topic.Build

/-!
# The cache is coherent

The ranking of a topic and the compiled patterns of its rules are caches: they are made from the
rules and the alternates, and one flag of the engine says whether they are of use. An engine is
coherent if all its topics are up to date whenever the flag says so (`Coherent`). Whatever changes
rules or alternates takes the flag down, and only building puts it up, so every engine that can be
reached is coherent, the engines inside replies included (`Reachable.coherent`).
-/

set_option autoImplicit false

namespace Rejoinder

namespace Engine

/-- There is a default topic, and all topics are up to date if the engine says that they are. -/
structure Coherent (grammar : Grammar) (e : Engine) : Prop where
  grammar_eq : e.grammar = grammar
  hasDefault : ∃ t, e.topics.get? defaultTopic = some t
  upToDate : e.cacheBuilt = true → ∀ name t, e.topics.get? name = some t → t.UpToDate grammar

/-- Two engines have the same rules, in the same state. -/
def SameRules (e₁ e : Engine) : Prop :=
  e₁.grammar = e.grammar ∧ e₁.topics = e.topics ∧ e₁.cacheBuilt = e.cacheBuilt

variable {config : Config} {grammar : Grammar} {e e' : Engine}

/-- Only the rules and their being up to date count. -/
theorem Coherent.congr (h : Coherent grammar e) (hgrammar : e'.grammar = e.grammar)
    (htopics : e'.topics = e.topics) (hbuilt : e'.cacheBuilt = e.cacheBuilt) :
    Coherent grammar e' := by
  refine ⟨hgrammar.trans h.grammar_eq, ?_, ?_⟩
  · rw [htopics]
    exact h.hasDefault
  · rw [htopics, hbuilt]
    exact h.upToDate

/-- In a coherent engine, building leads to the topics that are built from those before, whether it
has to be done or has been done already. -/
theorem Coherent.topics_buildCache (h : Coherent grammar e) :
    e.buildCache.topics = e.topics.map (Topic.build grammar) := by
  cases hbuilt : e.cacheBuilt with
  | false =>
    obtain ⟨journal, hbuild⟩ := exists_journal_buildCache hbuilt
    rw [hbuild, ← h.grammar_eq]
  | true =>
    have hsame : e.topics.map (Topic.build grammar) = e.topics :=
      Table.map_eq_self fun name t ht =>
        Topic.upToDate_iff_build_eq.mp (h.upToDate hbuilt name t ht)
    rw [buildCache_of_built hbuilt, hsame]

/-- Building leads to the build of every topic, whether it has been done before or not. -/
theorem Coherent.get?_buildCache (h : Coherent grammar e) (name : String) :
    e.buildCache.topics.get? name = (e.topics.get? name).map (Topic.build grammar) := by
  rw [h.topics_buildCache, Table.get?_map]

/-- Building keeps an engine coherent. -/
theorem Coherent.buildCache (h : Coherent grammar e) : Coherent grammar e.buildCache := by
  obtain ⟨t, ht⟩ := h.hasDefault
  refine ⟨(grammar_buildCache e).trans h.grammar_eq, ⟨t.build grammar, ?_⟩, ?_⟩
  · rw [h.get?_buildCache, ht]
    rfl
  · intro _ name t ht
    rw [h.get?_buildCache, Option.map_eq_some_iff] at ht
    obtain ⟨t', _, rfl⟩ := ht
    exact Topic.upToDate_build grammar t'

/-- A load leads from a coherent engine to a coherent one. -/
theorem Coherent.load (h : Coherent grammar e) (source : Source) :
    Coherent grammar (e.load source).2 := by
  have hP : LoadInvariant fun e' : Engine => ∃ t, e'.topics.get? defaultTopic = some t := by
    refine .of_putTopic ?_ (fun _ _ he => he) ?_
    · intro event e' he'
      simpa using he'
    · rintro name t e' ⟨t', ht'⟩
      dsimp only
      rw [Table.get?_insert]
      split
      · exact ⟨t, rfl⟩
      · exact ⟨t', ht'⟩
  have hdefault : ∃ t, (e.load source).2.topics.get? defaultTopic = some t :=
    hP.load source ⟨_, rfl⟩
  obtain ⟨_, hgrammar, _, hbuilt⟩ := load_frame source e
  refine ⟨hgrammar.trans h.grammar_eq, hdefault, ?_⟩
  intro htrue
  rw [hbuilt] at htrue
  contradiction

/-- A new alternate makes the engine forget that its rules have been built, so it stays coherent. -/
theorem Coherent.addAlternate (h : Coherent grammar e) (topic name value : String) :
    Coherent grammar (e.addAlternate topic name value) := by
  refine ⟨h.grammar_eq, ?_, ?_⟩
  · obtain ⟨t, ht⟩ := h.hasDefault
    rw [Engine.addAlternate, Table.get?_insert]
    split
    · exact ⟨_, rfl⟩
    · exact ⟨t, ht⟩
  · intro htrue
    contradiction

/-- Every operation keeps an engine coherent. -/
theorem lasting_coherent (grammar : Grammar) : Lasting (Coherent grammar) where
  emit event e h := h.congr (grammar_emit event e) (topics_emit event e) (cacheBuilt_emit event e)
  meet user e h := h.congr (grammar_meet user e) (topics_meet user e) (cacheBuilt_meet user e)
  buildCache _ h := h.buildCache
  changeVars _ _ _ h := h.congr rfl rfl rfl
  setTopic _ _ _ h := h.congr rfl rfl rfl
  changeBotvars _ _ h := h.congr rfl rfl rfl
  setUser _ _ _ h := h.congr rfl rfl rfl
  load source _ h := h.load source
  addAlternate topic name value _ h := h.addAlternate topic name value
  addSubstitution _ _ _ h := h.congr rfl rfl rfl
  resetUser _ _ h := h.congr rfl rfl rfl
  resetUsers _ h := h.congr rfl rfl rfl

/-- A new engine is coherent. -/
theorem coherent_withGrammar (config : Config) (grammar : Grammar) :
    Coherent grammar (withGrammar config grammar) := by
  refine Coherent.congr ?_ (grammar_emit _ _) (topics_emit _ _) (cacheBuilt_emit _ _)
  refine ⟨rfl, ⟨_, rfl⟩, ?_⟩
  intro htrue
  contradiction

/-- Every engine that can be reached is coherent. -/
theorem Reachable.coherent (h : Reachable config grammar e) : Coherent grammar e :=
  (lasting_coherent grammar).of_reachable (coherent_withGrammar config grammar) h

/-- The engine in which rules are gone through is coherent. -/
theorem Coherent.scanned (h : Coherent grammar e) (user message : String) :
    Coherent grammar (e.scanned user message) :=
  (lasting_coherent grammar).scanned message h

/-- If an engine that can be reached says that its topics are up to date, they are. And whatever
replies are asked for while a message is answered, the rules that are gone through for each of them
are those of topics that are up to date, and the engine says so. -/
theorem Reachable.cache_coherent (h : Reachable config grammar e) :
    (e.cacheBuilt = true → ∀ name t, e.topics.get? name = some t → t.UpToDate grammar) ∧
      ∀ user message, ∀ c ∈ e.calls user message,
        (c.engine.scanned user c.message).cacheBuilt = true ∧
          ∀ name t, (c.engine.scanned user c.message).topics.get? name = some t →
            t.UpToDate grammar := by
  refine ⟨h.coherent.upToDate, ?_⟩
  intro user message c hc
  have hbuilt : (c.engine.scanned user c.message).cacheBuilt = true :=
    cacheBuilt_scanned user c.message c.engine
  have hscanned : Coherent grammar (c.engine.scanned user c.message) :=
    (h.call user message hc).coherent.scanned user c.message
  exact ⟨hbuilt, hscanned.upToDate hbuilt⟩

/-- Two rules that have been loaded and built. -/
theorem cache_coherent_greetings :
    let e := ((withGrammar .default .bundled).performAll [.load .greetings, .buildCache]).2
    Reachable .default .bundled e ∧ e.cacheBuilt = true ∧
      ∃ t, e.topics.get? defaultTopic = some t ∧ t.rules.length = 2 ∧ t.UpToDate .bundled := by
  intro e
  let loaded := ((withGrammar .default .bundled).performAll [.load .greetings]).2
  have hloaded : Reachable .default .bundled loaded := Reachable.start.performAll _
  have he : Reachable .default .bundled e := Reachable.start.performAll _
  have hbuilt : e.cacheBuilt = true := cacheBuilt_buildCache loaded
  have hlength : (loaded.topics.get? defaultTopic).map (fun t => t.rules.length) = some 2 := by
    decide +kernel
  obtain ⟨t, ht, htwo⟩ := Option.map_eq_some_iff.mp hlength
  have hbuild : e.topics.get? defaultTopic = some (t.build .bundled) := by
    have hget := hloaded.coherent.get?_buildCache defaultTopic
    rwa [ht] at hget
  refine ⟨he, hbuilt, t.build .bundled, hbuild, ?_, he.cache_coherent.1 hbuilt _ _ hbuild⟩
  rwa [Topic.build, List.length_map]

end Engine

end Rejoinder
