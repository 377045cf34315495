import Rejoinder.Proofs.Engine.Coherence
import Rejoinder.Proofs.Engine.LoadLockstep
import Rejoinder.Proofs.Engine.Loading
import Rejoinder.Proofs.Engine.Prepared

/-!
# A load starts from nothing

What a load makes of a source does not depend on what there was before: engines with one grammar
have the same topics afterwards, and get the same report (`load_alike`). The topics are as a new
topic is, but for the rules that were registered (`fresh_load`). The bot variables are the one thing
that goes through a load, and only the setups of the scripts change them (`botvars_load`).
-/

set_option autoImplicit false

namespace Rejoinder

/-- Two loads stand alike: they have the same rules so far, and the same report. -/
structure Loading.Alike (l l' : Loading) : Prop where
  grammar : l.engine.grammar = l'.engine.grammar
  topics : l.engine.topics = l'.engine.topics
  report : l.report = l'.report

/-- The same problem keeps two loads alike. -/
theorem Loading.Alike.record {l l' : Loading} (h : l.Alike l') (issue : LoadIssue) :
    (l.record issue).Alike (l'.record issue) := by
  refine ⟨?_, ?_, ?_⟩
  · simpa [Loading.record] using h.grammar
  · simpa [Loading.record] using h.topics
  · rw [Loading.record, Loading.record, h.report]

/-- Loads that are alike stay so with every step. -/
theorem Loading.lockstep_alike : Lockstep id Alike where
  injective := Function.injective_id
  grammar h := h.grammar
  topics h := by rw [h.topics, Topic.map_relabel_id]
  emit event _ l l' h := by
    refine ⟨?_, ?_, h.report⟩
    · simpa [Loading.emit] using h.grammar
    · simpa [Loading.emit] using h.topics
  record issue _ _ _ h := h.record issue
  putTopic name t l l' h := by
    refine ⟨h.grammar, ?_, h.report⟩
    rw [Loading.putTopic, Loading.putTopic, h.topics, t.relabel_id]
  changeBotvars _ _ _ h := ⟨h.grammar, h.topics, h.report⟩
  countScript h := ⟨h.grammar, h.topics, by rw [countScript, countScript, h.report]⟩
  countRules _ _ _ h := ⟨h.grammar, h.topics, by rw [countRules, countRules, h.report]⟩

/-! ## The bot variables through a load -/

namespace Loading

/-- Recording a problem changes no bot variable. -/
theorem botvars_record (issue : LoadIssue) (l : Loading) :
    (l.record issue).engine.botvars = l.engine.botvars := by
  rw [record, Engine.botvars_emit]

/-- A declaration changes no bot variable. -/
theorem botvars_loadDeclaration (topic script : String) (l : Loading) (d : Declaration) :
    (l.loadDeclaration topic script d).engine.botvars = l.engine.botvars := by
  cases d with
  | alternate name value => exact botvars_record _ l
  | substitution word replacement => exact botvars_record _ l
  | rule spec =>
    rw [loadDeclaration, loadRule]
    dsimp only
    split
    · exact botvars_record _ l
    · split
      · exact Engine.botvars_emit _ _
      · rfl
      · exact botvars_record _ l

/-- A script does to the bot variables what its setup does. -/
theorem botvars_loadScript (script : Script) (l : Loading) :
    (l.loadScript script).engine.botvars = script.setup l.engine.botvars := by
  have hensured : ∀ e : Engine, (e.ensureTopic script.topicName).botvars = e.botvars := by
    intro e
    rw [Engine.ensureTopic]
    split <;> rfl
  rw [loadScript]
  refine List.foldlRecOn script.declarations _
    (motive := fun l' : Loading => l'.engine.botvars = script.setup l.engine.botvars) ?_ ?_
  · simp [Engine.changeBotvars, hensured]
  · exact fun l' hl' d _ => (botvars_loadDeclaration _ _ l' d).trans hl'

end Loading

/-- The bot variables after the setups of all scripts of a source, one after the other. -/
def Source.setUp (source : Source) (vars : Vars) : Vars :=
  source.scripts.foldl
    (fun vars entry =>
      match entry with
      | .ok script => script.setup vars
      | .error _ => vars)
    vars

namespace Engine

/-- A load makes the same topics and the same report of a source, whatever there was before. -/
theorem load_alike (source : Source) {e e' : Engine} (h : e.grammar = e'.grammar) :
    (e.load source).1 = (e'.load source).1 ∧
      (e.load source).2.topics = (e'.load source).2.topics := by
  have hstart : (Loading.start source e).Alike (Loading.start source e') :=
    ⟨by simpa [Loading.start, resetTopics] using h, rfl, rfl⟩
  have hdone := Loading.lockstep_alike.done (fun issue _ _ h => h.record issue) hstart
  exact ⟨hdone.report, hdone.topics⟩

/-- The setups of the scripts are all that a load does to the bot variables. -/
theorem botvars_load (source : Source) (e : Engine) :
    (e.load source).2.botvars = source.setUp e.botvars := by
  have hentries : ∀ (entries : List (Except ScriptError Script)) (l : Loading),
      (entries.foldl Loading.loadEntry l).engine.botvars =
        (Source.setUp ⟨source.description, entries⟩ l.engine.botvars) := by
    intro entries
    induction entries with
    | nil => exact fun _ => rfl
    | cons entry rest ih =>
      intro l
      rw [List.foldl_cons, ih]
      cases entry with
      | error error => rw [Loading.loadEntry, Loading.botvars_record]; rfl
      | ok script => rw [Loading.loadEntry, Loading.botvars_loadScript]; rfl
  have hfinish : ∀ l : Loading,
      (l.finish source.description).engine.botvars = l.engine.botvars := by
    intro l
    rw [Loading.finish]
    dsimp only
    split
    · exact Loading.botvars_record _ _
    · rfl
  rw [load, hfinish, hentries]
  exact congrArg (Source.setUp source) (botvars_emit _ _)

end Engine

/-! ## Topics after a load -/

namespace Topic

/-- A topic as it is before its rules are ranked and compiled for the first time, with the
alternates that a topic of its name begins with. -/
structure Fresh (name : String) (t : Topic) : Prop where
  name_eq : t.name = name
  indexed : t.Indexed
  uncompiled : ∀ r ∈ t.rules, r.matcher = none
  unranked : t.ranking = []
  alternates : t.alternates = if name = defaultTopic then builtinAlternates else .empty

/-- A new topic under another name than the default topic's is fresh. -/
theorem fresh_new {name : String} (hname : name ≠ defaultTopic) : (new name).Fresh name := by
  refine ⟨rfl, indexed_new name, ?_, rfl, ?_⟩
  · intro r hr
    contradiction
  · rw [if_neg hname]
    rfl

/-- Registering rules changes nothing but the rules and their index. -/
theorem Fresh.insert {name : String} {t t' : Topic} {rule : Rule} (h : t.Fresh name)
    (hrule : rule.matcher = none) (hadded : t.insert rule = (t', .added)) : t'.Fresh name := by
  cases hfind : t.rules.find? fun r => r.key = rule.key with
  | none =>
    rw [h.indexed.insert_of_new hfind] at hadded
    obtain ⟨rfl, _⟩ := Prod.mk.inj hadded
    refine ⟨h.name_eq, h.indexed.append hfind, ?_, h.unranked, h.alternates⟩
    intro r hr
    rcases List.mem_append.mp hr with hr | hr
    · exact h.uncompiled r hr
    · rwa [List.mem_singleton.mp hr]
  | some existing =>
    by_cases hsame : existing.handler.identity = rule.handler.identity
    · simp [h.indexed.insert_of_same hfind hsame] at hadded
    · simp [h.indexed.insert_of_conflict hfind hsame] at hadded

end Topic

namespace Engine

/-- The default topic is there, and all topics are fresh. -/
structure FreshTopics (e : Engine) : Prop where
  hasDefault : e.topics.contains defaultTopic = true
  fresh : ∀ name t, e.topics.get? name = some t → t.Fresh name

variable {e e' : Engine}

/-- Fresh topics are so in any engine with the same topics. -/
theorem FreshTopics.congr (h : FreshTopics e) (htopics : e'.topics = e.topics) :
    FreshTopics e' := by
  refine ⟨?_, ?_⟩
  · rw [htopics]
    exact h.hasDefault
  · rw [htopics]
    exact h.fresh

/-- A fresh topic among the others leaves them fresh. -/
theorem FreshTopics.put (h : FreshTopics e) {name : String} {t : Topic} (ht : t.Fresh name) :
    FreshTopics { e with topics := e.topics.insert name t } := by
  refine ⟨?_, ?_⟩
  · exact Table.contains_insert.mpr (.inr h.hasDefault)
  · intro name' t' ht'
    rw [Table.get?_insert] at ht'
    split at ht'
    · rename_i hname
      obtain rfl := Option.some.inj ht'
      rwa [hname]
    · exact h.fresh name' t' ht'

/-- After a reset all topics are fresh. -/
theorem freshTopics_resetTopics (e : Engine) : FreshTopics e.resetTopics := by
  refine ⟨rfl, ?_⟩
  intro name t ht
  have hget : e.resetTopics.topics.get? name = if name = defaultTopic then
      some { Topic.new defaultTopic with alternates := builtinAlternates } else none :=
    Table.get?_insert
  rw [hget] at ht
  split at ht
  · rename_i hname
    obtain rfl := Option.some.inj ht
    refine ⟨hname.symm, fun _ => rfl, ?_, rfl, (if_pos hname).symm⟩
    intro r hr
    contradiction
  · contradiction

/-- Every step of a load keeps the topics fresh. -/
theorem loadInvariant_freshTopics : LoadInvariant FreshTopics where
  emit event e h := h.congr (topics_emit event e)
  changeBotvars _ _ h := h.congr rfl
  ensureTopic name e h := by
    unfold ensureTopic
    split
    · exact h
    · rename_i hmissing
      apply h.put
      apply Topic.fresh_new
      rintro rfl
      exact hmissing h.hasDefault
  register topic rule t e hrule hadded h := by
    apply h.put
    refine Topic.Fresh.insert ?_ hrule hadded
    cases ht : e.topics.get? topic with
    | some t => exact h.fresh topic t ht
    | none =>
      -- A topic that is missing is not the default topic, which begins with alternates.
      apply Topic.fresh_new
      rintro rfl
      have hthere := h.hasDefault
      simp [Table.contains, ht] at hthere

/-- After a load all topics are fresh. -/
theorem fresh_load (source : Source) (e : Engine) : FreshTopics (e.load source).2 := by
  apply loadInvariant_freshTopics.load
  exact freshTopics_resetTopics _

/-! ## What becomes of an engine -/

/-- The rules are out of date and the scripts have set up the bot variables. Apart from the topics
and the events, the engine is as it was before the load. -/
structure LoadedFrom (source : Source) (before after : Engine) : Prop where
  config : after.config = before.config
  grammar : after.grammar = before.grammar
  users : after.users = before.users
  botvars : after.botvars = source.setUp before.botvars
  cacheBuilt : after.cacheBuilt = false

/-- A load changes the topics, the bot variables and the events, and makes the rules out of date. -/
theorem loadedFrom_load (source : Source) (e : Engine) :
    LoadedFrom source e (e.load source).2 := by
  obtain ⟨hconfig, hgrammar, husers, hbuilt⟩ := load_frame source e
  exact ⟨hconfig, hgrammar, husers, botvars_load source e, hbuilt⟩

/-- The table of the rules is made from the topics. -/
theorem ruleTable_congr (h : e.buildCache.topics = e'.buildCache.topics) :
    e.ruleTable.1 = e'.ruleTable.1 := by
  simp only [ruleTable, topicNames, topic?, h]

/-- A load starts from nothing. Whatever two engines have been through, they have the same topics
after a load, all of them fresh, and the reports are the same. Each engine keeps everything else,
but for what the scripts do to the bot variables. So loading a source again leaves the same topics,
and the same table of rules when they have been built. -/
theorem load_from_nothing (source : Source) {e e' : Engine} (h : e.grammar = e'.grammar) :
    let once := (e.load source).2
    let twice := (once.load source).2
    (e.load source).1 = (e'.load source).1 ∧ once.topics = (e'.load source).2.topics ∧
      FreshTopics once ∧ LoadedFrom source e once ∧ LoadedFrom source e' (e'.load source).2 ∧
      twice.topics = once.topics ∧ twice.ruleTable.1 = once.ruleTable.1 := by
  intro once twice
  have honce : LoadedFrom source e once := loadedFrom_load source e
  have htwice : LoadedFrom source once twice := loadedFrom_load source once
  obtain ⟨hreports, htopics⟩ := load_alike source h
  have hagain : twice.topics = once.topics := (load_alike source honce.grammar).2
  refine ⟨hreports, htopics, fresh_load source e, honce, loadedFrom_load source e', hagain, ?_⟩
  apply ruleTable_congr
  rw [topics_buildCache, topics_buildCache, builtTopics, builtTopics, hagain, htwice.grammar,
    htwice.cacheBuilt, honce.cacheBuilt]

/-- A new engine, and one that has been loaded, built and added to before. -/
theorem load_from_nothing_greetings :
    let e := withGrammar .default .bundled
    let e' := (e.performAll [.load .greetings, .buildCache, .setTopic "ann" "weather",
      .addAlternate defaultTopic "colors" "(black)", .addAlternate "weather" "sky" "(grey)"]).2
    e.grammar = e'.grammar ∧ e'.topics.keys = ["all", "weather"] ∧
      (e.load .greetings).1 = (e'.load .greetings).1 ∧
      (e.load .greetings).2.topics = (e'.load .greetings).2.topics := by
  intro e e'
  have he' : e'.grammar = .bundled := (Reachable.start.performAll _).coherent.grammar_eq
  have he : e.grammar = .bundled := grammar_emit _ _
  have h : e.grammar = e'.grammar := he.trans he'.symm
  obtain ⟨hreports, htopics, _⟩ := load_from_nothing .greetings h
  exact ⟨h, by decide +kernel, hreports, htopics⟩

end Engine

end Rejoinder
