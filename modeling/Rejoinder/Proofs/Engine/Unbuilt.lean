import Rejoinder.Engine.Operation
import Rejoinder.Proofs.Engine.Lockstep
import Rejoinder.Proofs.Engine.Restart

/-!
# Engines without what building does to them

Building ranks the rules, compiles them, and tells of those that do not compile. `Engine.unbuilt` is
an engine without all that. Every step of an engine can be taken in this engine as well, and
building is no step of it (`unbuilt_buildCache`). What building does is made from the rest anew, so
coherent engines that are the same without it (`SameUnbuilt`) do the same: they make the same
replies (`lockstep_sameUnbuilt`) and loads (`SameUnbuilt.load`), and give the same answers to all
operations (`SameUnbuilt.perform`), whichever of them has been built.
-/

set_option autoImplicit false

namespace Rejoinder

/-- Whether an event tells of a rule that does not compile. -/
def Event.ofBuild : Event → Bool
  | .compileFailed .. => true
  | _ => false

namespace Engine

/-- The engine without what building does to it. -/
def unbuilt (e : Engine) : Engine :=
  { e with
    topics := e.topics.map Topic.unbuilt
    cacheBuilt := false
    journal := e.journal.filter fun event => !event.ofBuild }

/-! ## Steps without what building does -/

/-- Events of a build do not count where nothing has been built; all others do. -/
theorem unbuilt_emit (event : Event) (e : Engine) :
    (e.emit event).unbuilt = if event.ofBuild then e.unbuilt else e.unbuilt.emit event := by
  have hwrites : e.unbuilt.writes event.level = e.writes event.level := by
    unfold writes
    cases event.level <;> rfl
  rw [emit, emit, hwrites]
  cases hbuild : event.ofBuild <;> cases e.writes event.level <;> simp [unbuilt, hbuild]

/-- Events of a build do not count where nothing has been built. -/
theorem unbuilt_foldl_emit {events : List Event} (h : ∀ event ∈ events, event.ofBuild = true)
    (e : Engine) : (events.foldl (fun e event => e.emit event) e).unbuilt = e.unbuilt := by
  refine List.foldlRecOn events _ (motive := fun e' : Engine => e'.unbuilt = e.unbuilt) rfl ?_
  intro e' he' event hevent
  rw [unbuilt_emit, if_pos (h event hevent), he']

/-- What does not compile is noted with events of a build. -/
theorem ofBuild_of_mem_compileFailures {e : Engine} {event : Event}
    (h : event ∈ e.compileFailures) : event.ofBuild = true := by
  obtain ⟨t, _, hevent⟩ := List.mem_flatMap.mp h
  obtain ⟨failure, _, rfl⟩ := List.mem_map.mp hevent
  rfl

/-- Building does what it does, and nothing else. -/
theorem unbuilt_buildCache (e : Engine) : e.buildCache.unbuilt = e.unbuilt := by
  unfold buildCache
  split
  · rfl
  · rw [unbuilt_foldl_emit fun event => ofBuild_of_mem_compileFailures]
    have hunbuilt : Topic.unbuilt ∘ Topic.build e.grammar = Topic.unbuilt := by
      funext t
      exact Topic.unbuilt_build _ t
    simp only [unbuilt, Table.map_map, hunbuilt]

/-- Meeting a user does the same where nothing has been built. -/
theorem unbuilt_meet (user : String) (e : Engine) :
    (e.meet user).unbuilt = e.unbuilt.meet user := by
  have hcontains : e.unbuilt.topics.contains (e.user user).topic =
      e.topics.contains (e.user user).topic := Table.contains_map _ _ _
  have huser : e.unbuilt.user user = e.user user := rfl
  rw [meet, meet, huser, hcontains]
  split
  · rfl
  · exact unbuilt_emit _ _

/-- A new alternate does the same where nothing has been built. -/
theorem unbuilt_addAlternate (topic name value : String) (e : Engine) :
    (e.addAlternate topic name value).unbuilt = e.unbuilt.addAlternate topic name value := by
  simp only [addAlternate, unbuilt, Table.map_insert, Table.get?_map]
  cases e.topics.get? topic <;> rfl

/-- Building changes no name of a topic. -/
theorem topicNames_unbuilt (e : Engine) : e.unbuilt.topicNames = e.topicNames := by
  rw [topicNames, topicNames, unbuilt, Table.keys_map]

/-- Building does not change the number of rules. -/
theorem ruleCount_unbuilt (e : Engine) : e.unbuilt.ruleCount = e.ruleCount := by
  have hlength : ∀ t : Topic, t.unbuilt.rules.length = t.rules.length := fun _ => List.length_map _
  rw [ruleCount, ruleCount, unbuilt, Table.values_map, List.foldr_map]
  simp only [hlength]

/-! ## Engines that are the same but for what building does -/

/-- Two engines that may have been built or not, and are the same otherwise. -/
structure SameUnbuilt (grammar : Grammar) (e e' : Engine) : Prop where
  coherent : Coherent grammar e
  coherent' : Coherent grammar e'
  unbuilt : e.unbuilt = e'.unbuilt

variable {grammar : Grammar} {e e' : Engine}

namespace SameUnbuilt

/-- It does not matter which of the engines has been built. -/
theorem symm (h : SameUnbuilt grammar e e') : SameUnbuilt grammar e' e :=
  ⟨h.coherent', h.coherent, h.unbuilt.symm⟩

/-- The settings do not depend on a build. -/
theorem config (h : SameUnbuilt grammar e e') : e.config = e'.config :=
  (congrArg Engine.config h.unbuilt :)

/-- The bot variables do not depend on a build. -/
theorem botvars (h : SameUnbuilt grammar e e') : e.botvars = e'.botvars :=
  (congrArg Engine.botvars h.unbuilt :)

/-- The users do not depend on a build. -/
theorem users (h : SameUnbuilt grammar e e') : e.users = e'.users :=
  (congrArg Engine.users h.unbuilt :)

/-- The record of a user does not depend on a build. -/
theorem user_eq (h : SameUnbuilt grammar e e') (name : String) : e.user name = e'.user name := by
  rw [Engine.user, Engine.user, h.users]

/-- The variables of a user do not depend on a build. -/
theorem uservars (h : SameUnbuilt grammar e e') (name : String) :
    e.uservars? name = e'.uservars? name := by
  rw [uservars?, uservars?, h.users]

/-- Once they are built, the topics are the same. -/
theorem topics_buildCache (h : SameUnbuilt grammar e e') :
    e.buildCache.topics = e'.buildCache.topics := by
  have hbuild : ∀ topics : Table String Topic, topics.map (Topic.build grammar) =
      (topics.map Topic.unbuilt).map (Topic.build grammar) := by
    intro topics
    rw [Table.map_map]
    congr 1
    funext t
    exact (Topic.build_unbuilt grammar t).symm
  have htopics : e.topics.map Topic.unbuilt = e'.topics.map Topic.unbuilt :=
    congrArg Engine.topics h.unbuilt
  rw [h.coherent.topics_buildCache, h.coherent'.topics_buildCache, hbuild, htopics, ← hbuild]

/-! ### Steps of both engines -/

/-- Writing an event keeps engines the same but for what building does. -/
theorem emit (h : SameUnbuilt grammar e e') (event : Event) :
    SameUnbuilt grammar (e.emit event) (e'.emit event) := by
  have hlasting := lasting_coherent grammar
  refine ⟨hlasting.emit _ _ h.coherent, hlasting.emit _ _ h.coherent', ?_⟩
  rw [unbuilt_emit, unbuilt_emit, h.unbuilt]

/-- A step of both engines that leaves the rules alone and has nothing to do with building. -/
theorem step (h : SameUnbuilt grammar e e') (change : Engine → Engine)
    (hrules : ∀ e, SameRules (change e) e) (hunbuilt : ∀ e, (change e).unbuilt = change e.unbuilt) :
    SameUnbuilt grammar (change e) (change e') := by
  obtain ⟨hgrammar, htopics, hbuilt⟩ := hrules e
  obtain ⟨hgrammar', htopics', hbuilt'⟩ := hrules e'
  refine ⟨h.coherent.congr hgrammar htopics hbuilt, ?_, ?_⟩
  · exact h.coherent'.congr hgrammar' htopics' hbuilt'
  · rw [hunbuilt, hunbuilt, h.unbuilt]

/-- Meeting a user keeps engines the same but for what building does. -/
theorem meet (h : SameUnbuilt grammar e e') (user : String) :
    SameUnbuilt grammar (e.meet user) (e'.meet user) := by
  apply h.step (Engine.meet user) _ (unbuilt_meet user)
  exact fun e => ⟨grammar_meet user e, topics_meet user e, cacheBuilt_meet user e⟩

/-- Putting down a record of a user keeps engines the same but for what building does. -/
theorem setUser (h : SameUnbuilt grammar e e') (name : String) (u : User) :
    SameUnbuilt grammar (e.setUser name u) (e'.setUser name u) :=
  h.step (Engine.setUser name u) (fun _ => ⟨rfl, rfl, rfl⟩) fun _ => rfl

/-- A change of the variables of a user keeps engines the same but for what building does. -/
theorem changeVars (h : SameUnbuilt grammar e e') (name : String) (change : Vars → Vars) :
    SameUnbuilt grammar (e.changeVars name change) (e'.changeVars name change) := by
  rw [Engine.changeVars, Engine.changeVars, h.user_eq]
  exact h.setUser name _

/-- A change of the bot variables keeps engines the same but for what building does. -/
theorem changeBotvars (h : SameUnbuilt grammar e e') (change : Vars → Vars) :
    SameUnbuilt grammar (e.changeBotvars change) (e'.changeBotvars change) :=
  h.step (Engine.changeBotvars change) (fun _ => ⟨rfl, rfl, rfl⟩) fun _ => rfl

/-- Building one of the two engines changes nothing. -/
theorem buildCache_left (h : SameUnbuilt grammar e e') : SameUnbuilt grammar e.buildCache e' :=
  ⟨h.coherent.buildCache, h.coherent', (unbuilt_buildCache e).trans h.unbuilt⟩

/-- Building both engines keeps them the same but for what building does. -/
theorem buildCache (h : SameUnbuilt grammar e e') :
    SameUnbuilt grammar e.buildCache e'.buildCache :=
  h.buildCache_left.symm.buildCache_left.symm

/-- A new alternate keeps engines the same but for what building does. -/
theorem addAlternate (h : SameUnbuilt grammar e e') (topic name value : String) :
    SameUnbuilt grammar (e.addAlternate topic name value) (e'.addAlternate topic name value) := by
  refine ⟨h.coherent.addAlternate _ _ _, h.coherent'.addAlternate _ _ _, ?_⟩
  rw [unbuilt_addAlternate, unbuilt_addAlternate, h.unbuilt]

end SameUnbuilt

/-! ## Replies -/

/-- A reply does not tell such engines apart, whatever the handlers do. -/
theorem lockstep_sameUnbuilt (grammar : Grammar) (user : String) :
    Lockstep (fun _ => True) user (SameUnbuilt grammar) where
  emit event _ _ h := h.emit event
  meet h := h.meet user
  buildCache h := h.buildCache
  insertVar _ _ _ _ h := h.changeVars user _
  eraseVar _ _ _ h := h.changeVars user _
  remember previous _ _ h := by
    rw [h.user_eq]
    exact h.setUser user _
  changeBotvars _ _ _ change _ _ h := h.changeBotvars change
  depthLimit h := congrArg Config.depthLimit h.config
  substitutions h := congrArg Config.substitutions h.config
  topic _ _ _ h := by rw [h.uservars]
  getUser _ _ _ _ _ h := by rw [h.uservars]
  andThen _ _ _ _ _ h _ _ _ := by rw [sight_congr (h.uservars _) h.botvars]
  botvars h := h.botvars
  previousOf h := previousOf_congr user h.users
  candidates h := by rw [candidates, candidates, topic?, topic?, h.topics_buildCache]
  programs _ _ _ := Program.every_of_forall (fun _ => trivial) _

end Engine

/-! ## Loads -/

namespace Loading

/-- Two loads stand alike, and their engines are the same but for what building does. -/
structure AlikeUnbuilt (l l' : Loading) : Prop extends l.Alike l' where
  unbuilt : l.engine.unbuilt = l'.engine.unbuilt

/-- Recording a problem keeps loads alike but for what building does. -/
theorem AlikeUnbuilt.record {l l' : Loading} (h : l.AlikeUnbuilt l') (issue : LoadIssue) :
    (l.record issue).AlikeUnbuilt (l'.record issue) := by
  refine ⟨h.toAlike.record issue, ?_⟩
  rw [Loading.record, Loading.record, Engine.unbuilt_emit, Engine.unbuilt_emit, h.unbuilt]

/-- Loads stay alike but for what building does with every step. -/
theorem lockstep_alikeUnbuilt : Lockstep id AlikeUnbuilt where
  injective := Function.injective_id
  grammar h := h.grammar
  topics h := lockstep_alike.topics h.toAlike
  emit event hlevel l l' h := by
    refine ⟨lockstep_alike.emit event hlevel h.toAlike, ?_⟩
    rw [Loading.emit, Loading.emit, Engine.unbuilt_emit, Engine.unbuilt_emit, h.unbuilt]
  record issue _ _ _ h := h.record issue
  putTopic name t l l' h := by
    refine ⟨lockstep_alike.putTopic name t h.toAlike, ?_⟩
    have hput := congrArg (fun e : Engine =>
      { e with topics := e.topics.insert name t.unbuilt }) h.unbuilt
    simp only [Engine.unbuilt, ← Table.map_insert] at hput
    rw [t.relabel_id]
    exact hput
  changeBotvars change _ _ h :=
    ⟨lockstep_alike.changeBotvars change h.toAlike,
      (congrArg (Engine.changeBotvars change) h.unbuilt :)⟩
  countScript h := ⟨lockstep_alike.countScript h.toAlike, h.unbuilt⟩
  countRules count _ _ h := ⟨lockstep_alike.countRules count h.toAlike, h.unbuilt⟩

end Loading

namespace Engine

variable {grammar : Grammar} {e e' : Engine}

/-- A load gives the same report in both engines. -/
theorem SameUnbuilt.load (h : SameUnbuilt grammar e e') (source : Source) :
    InStep (SameUnbuilt grammar) (e.load source) (e'.load source) := by
  have hgrammar : e.grammar = e'.grammar :=
    h.coherent.grammar_eq.trans h.coherent'.grammar_eq.symm
  have hunbuilt := (h.emit (.loadingFrom source.description)).unbuilt
  have hreset := congrArg Engine.resetTopics hunbuilt
  have hstart : (Loading.start source e).AlikeUnbuilt (Loading.start source e') :=
    ⟨⟨by simpa [Loading.start, resetTopics] using hgrammar, rfl, rfl⟩, hreset⟩
  have hdone := Loading.lockstep_alikeUnbuilt.done (fun issue _ _ h => h.record issue) hstart
  exact ⟨hdone.report, h.coherent.load source, h.coherent'.load source, hdone.unbuilt⟩

end Engine

/-! ## Operations -/

/-- An answer without what building does to it: a topic comes without its ranking and without the
compiled patterns of its rules, and a description, which says whether the engine has been built, is
left out. -/
def Answer.unbuilt : Answer → Answer
  | .topic t => .topic (t.map Topic.unbuilt)
  | .description _ => .description ""
  | answer => answer

namespace Engine

variable {grammar : Grammar} {e e' : Engine}

/-- An operation gives the same answer in both engines. -/
theorem SameUnbuilt.perform (h : SameUnbuilt grammar e e') (o : Operation) :
    (e.perform o).1.unbuilt = (e'.perform o).1.unbuilt ∧
      SameUnbuilt grammar (e.perform o).2 (e'.perform o).2 := by
  cases o with
  | load source =>
    obtain ⟨hreport, hafter⟩ := h.load source
    exact ⟨congrArg Answer.report hreport, hafter⟩
  | reply user message =>
    obtain ⟨hanswer, hafter⟩ := (lockstep_sameUnbuilt grammar user).perform_reply message h
    exact ⟨congrArg Answer.unbuilt hanswer, hafter⟩
  | replyVerbose user message =>
    obtain ⟨hanswer, hafter⟩ := (lockstep_sameUnbuilt grammar user).perform_replyVerbose message h
    exact ⟨congrArg Answer.unbuilt hanswer, hafter⟩
  | buildCache => exact ⟨rfl, h.buildCache⟩
  | ruleTable =>
    exact ⟨congrArg Answer.rules (ruleTable_congr h.topics_buildCache), h.buildCache⟩
  | topicNames =>
    refine ⟨congrArg Answer.names ?_, h⟩
    rw [← topicNames_unbuilt, h.unbuilt, topicNames_unbuilt]
  | ruleCount =>
    refine ⟨congrArg Answer.count ?_, h⟩
    rw [← ruleCount_unbuilt, h.unbuilt, ruleCount_unbuilt]
  | topic name =>
    refine ⟨congrArg Answer.topic ?_, h⟩
    have htopic := congrArg (fun e : Engine => e.topics.get? name) h.unbuilt
    simp only [Engine.unbuilt, Table.get?_map] at htopic
    exact htopic
  | addAlternate topic name value => exact ⟨rfl, h.addAlternate topic name value⟩
  | addSubstitution word replacement =>
    exact ⟨rfl, h.step (Engine.addSubstitution word replacement) (fun _ => ⟨rfl, rfl, rfl⟩)
      fun _ => rfl⟩
  | config => exact ⟨congrArg Answer.config h.config, h⟩
  | botvars => exact ⟨congrArg (fun vars => Answer.vars (some vars)) h.botvars, h⟩
  | changeBotvars change =>
    exact ⟨congrArg (fun vars => Answer.vars (some vars)) h.botvars, h.changeBotvars change⟩
  | uservars user => exact ⟨congrArg Answer.vars (h.uservars user), h⟩
  | changeVars user change =>
    exact ⟨congrArg (fun u : User => Answer.vars (some u.vars)) (h.user_eq user),
      h.changeVars user change⟩
  | topicOf user =>
    refine ⟨congrArg Answer.name ?_, h⟩
    rw [topicOf?, topicOf?, h.users]
  | setTopic user topic =>
    refine ⟨rfl, ?_⟩
    simp only [Engine.perform, Engine.setTopic, h.user_eq]
    exact h.setUser user _
  | resetUser user =>
    refine ⟨congrArg Answer.known ?_, ?_⟩
    · rw [knows, knows, h.users]
    · exact h.step (Engine.resetUser user) (fun _ => ⟨rfl, rfl, rfl⟩) fun _ => rfl
  | resetUsers => exact ⟨rfl, h.step resetUsers (fun _ => ⟨rfl, rfl, rfl⟩) fun _ => rfl⟩
  | describe => exact ⟨by simp only [Engine.perform, Answer.unbuilt], h⟩

end Engine

end Rejoinder
