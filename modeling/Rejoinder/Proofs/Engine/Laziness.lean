import Rejoinder.Proofs.Engine.Unbuilt

/-!
# When rules are built does not matter

Rules are built when a reply needs them, and they may be built earlier by asking for it. Two runs
are compared, of which one asks for it now and then where the other one does not (`Step`). All other
operations have the same answers, and the engines are the same in the end but for what building does
(`SameUnbuilt.performAll`).

A build goes through the topics one by one. It does not matter in which order
(`buildVisiting_of_perm`): a topic is built from its own rules and alternates.
-/

set_option autoImplicit false

namespace Rejoinder

namespace Engine

/-! ## Runs with further builds in them -/

/-- A step of a run: an operation, or one that builds the rules and is put between the others. -/
inductive Step
  | kept (o : Operation)
  | build
  /-- The table of the rules is asked for as well. -/
  | table

namespace Step

/-- What a step does. -/
def operation : Step → Operation
  | .kept o => o
  | .build => .buildCache
  | .table => .ruleTable

/-- The operation of a step that is not put between the others. -/
def kept? : Step → Option Operation
  | .kept o => some o
  | .build => none
  | .table => none

end Step

/-- The answers to the operations between which others are put. -/
def keptAnswers (e : Engine) (steps : List Step) : List Answer :=
  ((steps.zip (e.performAll (steps.map Step.operation)).1).filter fun done =>
    done.1.kept?.isSome).map Prod.snd

/-- The answers that are kept, step by step. -/
theorem keptAnswers_cons (e : Engine) (step : Step) (rest : List Step) :
    keptAnswers e (step :: rest) =
      (if step.kept?.isSome then [(e.perform step.operation).1] else []) ++
        keptAnswers (e.perform step.operation).2 rest := by
  have hrun : (e.performAll ((step :: rest).map Step.operation)).1 = (e.perform step.operation).1 ::
      ((e.perform step.operation).2.performAll (rest.map Step.operation)).1 := rfl
  rw [keptAnswers, hrun, List.zip_cons_cons, List.filter_cons]
  dsimp only
  split
  · rw [List.map_cons]
    rfl
  · rfl

variable {grammar : Grammar} {e e' : Engine}

/-- Further builds in one of two runs change nothing but what building does. -/
theorem SameUnbuilt.performAll (h : SameUnbuilt grammar e e') (steps : List Step) :
    (keptAnswers e steps).map Answer.unbuilt =
        ((e'.performAll (steps.filterMap Step.kept?)).1).map Answer.unbuilt ∧
      SameUnbuilt grammar (e.performAll (steps.map Step.operation)).2
        (e'.performAll (steps.filterMap Step.kept?)).2 := by
  -- A step that is put between the others is taken by the first run alone.
  induction steps generalizing e e' with
  | nil => exact ⟨rfl, h⟩
  | cons step rest ih =>
    rw [keptAnswers_cons]
    cases step with
    | build => exact ih h.buildCache_left
    | table => exact ih h.buildCache_left
    | kept o =>
      obtain ⟨hanswer, hstep⟩ := h.perform o
      obtain ⟨hanswers, hafter⟩ := ih hstep
      refine ⟨?_, hafter⟩
      have hhead := congrArg₂ List.cons hanswer hanswers
      exact hhead

/-! ## The order of a build -/

/-- The events for the rules of a topic that do not compile. -/
def failuresIn (e : Engine) (name : String) : List Event :=
  match e.topics.get? name with
  | none => []
  | some t => (t.failures e.grammar).map fun f => .compileFailed t.name f.1 f.2

/-- One topic is built in its place. What does not compile in it is noted behind what did not
compile in the topics before. -/
def visit (visited : Engine × List Event) (name : String) : Engine × List Event :=
  match visited.1.topics.get? name with
  | none => visited
  | some t =>
    ({ visited.1 with topics := visited.1.topics.insert name (t.build visited.1.grammar) },
      visited.2 ++ visited.1.failuresIn name)

/-- The rules are built, unless they are up to date: one topic after the other in the given order.
At last it is written to the log what does not compile. -/
def buildVisiting (order : List String) (e : Engine) : Engine :=
  if e.cacheBuilt then e
  else
    let visited := order.foldl visit (e, [])
    visited.2.foldl (fun e event => e.emit event) { visited.1 with cacheBuilt := true }

/-- After some topics have been visited, these are built and the others are as they were. -/
theorem exists_foldl_visit {order : List String} (hnodup : order.Nodup)
    (hthere : ∀ name ∈ order, e.topics.contains name = true) (failures : List Event) :
    ∃ topics : Table String Topic, topics.keys = e.topics.keys ∧
      (∀ name, topics.get? name = (e.topics.get? name).map fun t =>
        if name ∈ order then t.build e.grammar else t) ∧
      order.foldl visit (e, failures) =
        ({ e with topics := topics }, failures ++ order.flatMap e.failuresIn) := by
  induction order generalizing e failures with
  | nil => exact ⟨e.topics, rfl, fun name => by simp, by simp⟩
  | cons name rest ih =>
    obtain ⟨hfirst, hrest⟩ := List.nodup_cons.mp hnodup
    have hname := hthere name List.mem_cons_self
    obtain ⟨t, ht⟩ := Table.contains_iff.mp hname
    let visited : Engine := { e with topics := e.topics.insert name (t.build e.grammar) }
    have hvisit : visit (e, failures) name = (visited, failures ++ e.failuresIn name) := by
      simp only [visit, ht]
      rfl
    have hthere' : ∀ other ∈ rest, visited.topics.contains other = true := fun other hother =>
      Table.contains_insert.mpr (.inr (hthere other (List.mem_cons_of_mem _ hother)))
    obtain ⟨topics, hkeys, hget, hfold⟩ := ih hrest hthere' (failures ++ e.failuresIn name)
    -- Topics that are visited later are still as they were.
    have hlater : rest.flatMap visited.failuresIn = rest.flatMap e.failuresIn := by
      refine List.flatMap_congr fun other hother => ?_
      have hne : other ≠ name := fun heq => hfirst (heq ▸ hother)
      simp only [failuresIn, visited, Table.get?_insert, if_neg hne]
    refine ⟨topics, hkeys.trans (Table.keys_insert_of_contains hname), ?_, ?_⟩
    · intro other
      rw [hget, Table.get?_insert]
      by_cases heq : other = name
      · subst heq
        simp [ht, hfirst]
      · rw [if_neg heq]
        simp only [List.mem_cons, heq, false_or]
        rfl
    · rw [List.foldl_cons, hvisit, hfold, hlater, List.flatMap_cons, List.append_assoc]

/-- What does not compile, topic by topic, is what building notes. -/
theorem flatMap_failuresIn_keys (e : Engine) :
    e.topics.keys.flatMap e.failuresIn = e.compileFailures := by
  rw [compileFailures, Table.keys, Table.values, List.flatMap_map, List.flatMap_map]
  refine List.flatMap_congr fun entry hentry => ?_
  have hget : e.topics.get? entry.1 = some entry.2 := Table.get?_eq_some_iff.mpr hentry
  simp only [failuresIn, hget]

/-- Of several events, the journal has those that the settings ask for, the last one first. -/
theorem journal_foldl_emit (events : List Event) (e : Engine) :
    (events.foldl (fun e event => e.emit event) e).journal =
      (events.filter fun event => e.writes event.level).reverse ++ e.journal := by
  induction events generalizing e with
  | nil => rfl
  | cons event rest ih =>
    have hwrites : ∀ level, (e.emit event).writes level = e.writes level := by
      intro level
      obtain ⟨journal, hemit⟩ := exists_journal_emit event e
      rw [hemit]
      rfl
    rw [List.foldl_cons, ih]
    simp only [hwrites]
    rw [emit]
    cases hevent : e.writes event.level <;> simp [hevent]

/-- A build that visits all topics builds each of them from its own rules and alternates. -/
theorem buildVisiting_eq {order : List String} (h : order.Perm e.topics.keys)
    (hbuilt : e.cacheBuilt = false) :
    e.buildVisiting order = (order.flatMap e.failuresIn).foldl (fun e event => e.emit event)
      { e with topics := e.topics.map (Topic.build e.grammar), cacheBuilt := true } := by
  have hthere : ∀ name ∈ order, e.topics.contains name = true := fun name hname =>
    Table.mem_keys_iff.mp (h.mem_iff.mp hname)
  obtain ⟨topics, hkeys, hget, hfold⟩ :=
    exists_foldl_visit (h.nodup_iff.mpr e.topics.distinct) hthere []
  have htopics : topics = e.topics.map (Topic.build e.grammar) := by
    apply Table.ext_get? (hkeys.trans (Table.keys_map _ _).symm)
    intro name
    rw [hget, Table.get?_map]
    cases ht : e.topics.get? name with
    | none => rfl
    | some t =>
      have hname : name ∈ order :=
        h.mem_iff.mpr (Table.mem_keys_iff.mpr (Table.contains_iff.mpr ⟨t, ht⟩))
      simp [hname]
  rw [buildVisiting, hbuilt, hfold, htopics, List.nil_append]
  rfl

/-- The order in which the engine itself visits the topics is that of their keys. -/
theorem buildVisiting_keys (e : Engine) : e.buildVisiting e.topics.keys = e.buildCache := by
  cases hbuilt : e.cacheBuilt with
  | true => rw [buildCache_of_built hbuilt, buildVisiting, if_pos hbuilt]
  | false =>
    rw [buildVisiting_eq (.refl _) hbuilt, flatMap_failuresIn_keys, buildCache, hbuilt]
    rfl

/-- In another order the failures are written in another order, and nothing else changes. -/
theorem buildVisiting_of_perm {order : List String} (h : order.Perm e.topics.keys) :
    (e.buildVisiting order).clearEvents = e.buildCache.clearEvents ∧
      (e.buildVisiting order).journal.Perm e.buildCache.journal := by
  cases hbuilt : e.cacheBuilt with
  | true =>
    rw [buildCache_of_built hbuilt, buildVisiting, if_pos hbuilt]
    exact ⟨rfl, .refl _⟩
  | false =>
    rw [← buildVisiting_keys, buildVisiting_eq h hbuilt, buildVisiting_eq (.refl _) hbuilt]
    constructor
    · obtain ⟨journal, hone⟩ := exists_journal_foldl_emit (order.flatMap e.failuresIn)
        { e with topics := e.topics.map (Topic.build e.grammar), cacheBuilt := true }
      obtain ⟨journal', hother⟩ := exists_journal_foldl_emit (e.topics.keys.flatMap e.failuresIn)
        { e with topics := e.topics.map (Topic.build e.grammar), cacheBuilt := true }
      rw [hone, hother]
      rfl
    · rw [journal_foldl_emit, journal_foldl_emit]
      have hfailures := (h.flatMap_right e.failuresIn).filter fun event => e.writes event.level
      refine ((List.reverse_perm _).append_right _).trans ((hfailures.append_right _).trans ?_)
      exact ((List.reverse_perm _).symm).append_right _

/-- It cannot be observed when the rules are built. Put any further builds and any further requests
for the table of the rules into a run from a new engine: all other operations have the same answers,
and the engine is the same in the end but for what building does. And where the engine goes through
the topics in the order of their keys, it may go through them in any order: only the events for the
rules that do not compile come in another order. -/
theorem building_unobservable (config : Config) (grammar : Grammar) :
    (∀ steps : List Step,
      let e := withGrammar config grammar
      let full := e.performAll (steps.map Step.operation)
      let plain := e.performAll (steps.filterMap Step.kept?)
      (keptAnswers e steps).map Answer.unbuilt = plain.1.map Answer.unbuilt ∧
        full.2.unbuilt = plain.2.unbuilt) ∧
      ∀ e : Engine, e.buildVisiting e.topics.keys = e.buildCache ∧
        ∀ order : List String, order.Perm e.topics.keys →
          (e.buildVisiting order).clearEvents = e.buildCache.clearEvents ∧
            (e.buildVisiting order).journal.Perm e.buildCache.journal := by
  constructor
  · intro steps e full plain
    have hcoherent : Coherent grammar e := coherent_withGrammar config grammar
    have hstart : SameUnbuilt grammar e e := ⟨hcoherent, hcoherent, rfl⟩
    obtain ⟨hanswers, hafter⟩ := hstart.performAll steps
    exact ⟨hanswers, hafter.unbuilt⟩
  · exact fun e => ⟨buildVisiting_keys e, fun _ => buildVisiting_of_perm⟩

/-- Two topics that are visited in the other order. -/
theorem building_unobservable_weather :
    let e := ((withGrammar .default .bundled).performAll
      [.load .greetings, .addAlternate "weather" "sky" "(grey)"]).2
    e.cacheBuilt = false ∧ ["weather", "all"].Perm e.topics.keys ∧
      (e.buildVisiting ["weather", "all"]).clearEvents = e.buildCache.clearEvents := by
  intro e
  have hkeys : e.topics.keys = ["all", "weather"] := by decide +kernel
  have horder : ["weather", "all"].Perm e.topics.keys := by
    rw [hkeys]
    exact .swap _ _ _
  have hbuild := ((building_unobservable .default .bundled).2 e).2 ["weather", "all"] horder
  exact ⟨rfl, horder, hbuild.1⟩

end Engine

end Rejoinder
