import Rejoinder.Engine.Operation
import Rejoinder.Proofs.Engine.LoadLog
import Rejoinder.Proofs.Engine.Lockstep
import Rejoinder.Proofs.Engine.Restart

/-!
# The log decides nothing

Two engines whose settings open different sinks write different logs, and that is all that becomes
of it (`SameButSinks`): they make the same replies (`lockstep_sameButSinks`) and loads
(`SameButSinks.load`), and give the same answers to all operations but those that show the settings
themselves (`SameButSinks.perform`). Together with the log of a load, which is what its report says,
this is all that a user of the log may rely on.
-/

set_option autoImplicit false

namespace Rejoinder

namespace Engine

/-- The engine with other sinks open, and another log. -/
def withSinks (debugLog errorLog : Bool) (journal : List Event) (e : Engine) : Engine :=
  { e with
    config := { e.config with debugLog := debugLog, errorLog := errorLog }
    journal := journal }

/-- The second engine is the first one with these sinks open, and with a log of its own. -/
def SameButSinks (debugLog errorLog : Bool) (e e' : Engine) : Prop :=
  ∃ journal, e' = e.withSinks debugLog errorLog journal

namespace SameButSinks

variable {debugLog errorLog : Bool} {e e' : Engine}

/-- Logs do not count. -/
theorem congr (h : SameButSinks debugLog errorLog e e') {e₁ e₁' : Engine}
    (he : e₁.clearEvents = e.clearEvents) (he' : e₁'.clearEvents = e'.clearEvents) :
    SameButSinks debugLog errorLog e₁ e₁' := by
  obtain ⟨journal, rfl⟩ := h
  obtain ⟨journal₁, rfl⟩ := clearEvents_eq_iff.mp he
  obtain ⟨journal₁', rfl⟩ := clearEvents_eq_iff.mp he'
  exact ⟨journal₁', rfl⟩

/-- A step of both engines that is the same whatever the sinks are. -/
theorem step (h : SameButSinks debugLog errorLog e e') (change : Engine → Engine)
    (hchange : ∀ e journal, change (e.withSinks debugLog errorLog journal) =
      (change e).withSinks debugLog errorLog journal) :
    SameButSinks debugLog errorLog (change e) (change e') := by
  obtain ⟨journal, rfl⟩ := h
  exact ⟨journal, hchange e journal⟩

/-- Writing an event keeps engines the same but for their sinks. -/
theorem emit (h : SameButSinks debugLog errorLog e e') (event : Event) :
    SameButSinks debugLog errorLog (e.emit event) (e'.emit event) :=
  h.congr (clearEvents_emit event e) (clearEvents_emit event e')

/-- Putting down a record of a user keeps engines the same but for their sinks. -/
theorem setUser (h : SameButSinks debugLog errorLog e e') (name : String) (u : User) :
    SameButSinks debugLog errorLog (e.setUser name u) (e'.setUser name u) :=
  h.step (Engine.setUser name u) fun _ _ => rfl

/-- Meeting a user keeps engines the same but for their sinks. -/
theorem meet (h : SameButSinks debugLog errorLog e e') (user : String) :
    SameButSinks debugLog errorLog (e.meet user) (e'.meet user) := by
  have hmet : e.met user = e'.met user := by
    obtain ⟨journal, rfl⟩ := h
    rfl
  refine (h.setUser user (e.met user)).congr ?_ ?_
  · exact clearEvents_eq_iff.mpr (exists_journal_meet user e)
  · rw [hmet]
    exact clearEvents_eq_iff.mpr (exists_journal_meet user e')

/-- A change of the variables of a user keeps engines the same but for their sinks. -/
theorem changeVars (h : SameButSinks debugLog errorLog e e') (name : String)
    (change : Vars → Vars) :
    SameButSinks debugLog errorLog (e.changeVars name change) (e'.changeVars name change) :=
  h.step (Engine.changeVars name change) fun _ _ => rfl

/-- A change of the bot variables keeps engines the same but for their sinks. -/
theorem changeBotvars (h : SameButSinks debugLog errorLog e e') (change : Vars → Vars) :
    SameButSinks debugLog errorLog (e.changeBotvars change) (e'.changeBotvars change) :=
  h.step (Engine.changeBotvars change) fun _ _ => rfl

/-- Both engines are built, or neither is. -/
theorem buildCache (h : SameButSinks debugLog errorLog e e') :
    SameButSinks debugLog errorLog e.buildCache e'.buildCache := by
  have hbuilt : e.cacheBuilt = e'.cacheBuilt := by
    obtain ⟨journal, rfl⟩ := h
    rfl
  cases hcache : e.cacheBuilt with
  | true => rwa [buildCache_of_built hcache, buildCache_of_built (hbuilt ▸ hcache)]
  | false =>
    have hranked := h.step
      (fun e => { e with topics := e.topics.map (Topic.build e.grammar), cacheBuilt := true })
      fun _ _ => rfl
    refine hranked.congr ?_ ?_
    · obtain ⟨journal, hbuild⟩ := exists_journal_buildCache hcache
      exact clearEvents_eq_iff.mpr ⟨journal, hbuild⟩
    · obtain ⟨journal, hbuild⟩ := exists_journal_buildCache (hbuilt ▸ hcache)
      exact clearEvents_eq_iff.mpr ⟨journal, hbuild⟩

end SameButSinks

/-! ## Replies -/

variable {debugLog errorLog : Bool} {e e' : Engine}

/-- A reply does not tell such engines apart, whatever the handlers do. -/
theorem lockstep_sameButSinks (debugLog errorLog : Bool) (user : String) :
    Lockstep (fun _ => True) user (SameButSinks debugLog errorLog) where
  emit event _ _ h := h.emit event
  meet h := h.meet user
  buildCache h := h.buildCache
  insertVar _ _ _ _ h := h.changeVars user _
  eraseVar _ _ _ h := h.changeVars user _
  remember previous _ _ h :=
    h.step (fun e => e.setUser user { e.user user with previous := previous }) fun _ _ => rfl
  changeBotvars _ _ _ change _ _ h := h.changeBotvars change
  depthLimit := by rintro e _ ⟨journal, rfl⟩; rfl
  substitutions := by rintro e _ ⟨journal, rfl⟩; rfl
  topic := by rintro _ e _ ⟨journal, rfl⟩; rfl
  getUser := by rintro _ _ _ e _ ⟨journal, rfl⟩; rfl
  andThen := by rintro _ _ _ e _ ⟨journal, rfl⟩ _ _ _; rfl
  botvars := by rintro e _ ⟨journal, rfl⟩; rfl
  previousOf := by rintro e _ ⟨journal, rfl⟩; rfl
  candidates := by
    intro e e' h
    obtain ⟨journal, hbuilt⟩ := h.buildCache
    rw [hbuilt]
    rfl
  programs _ _ _ := Program.every_of_forall (fun _ => trivial) _

end Engine

/-! ## Loads -/

namespace Loading

/-- Two loads with one report, whose engines are the same but for their sinks. -/
structure SameButSinks (debugLog errorLog : Bool) (l l' : Loading) : Prop where
  engine : l.engine.SameButSinks debugLog errorLog l'.engine
  report : l.report = l'.report

variable {debugLog errorLog : Bool}

/-- Recording a problem keeps loads the same but for their sinks. -/
theorem SameButSinks.record {l l' : Loading} (h : l.SameButSinks debugLog errorLog l')
    (issue : LoadIssue) : (l.record issue).SameButSinks debugLog errorLog (l'.record issue) :=
  ⟨h.engine.emit _, by rw [Loading.record, Loading.record, h.report]⟩

/-- Loads stay the same but for their sinks with every step. -/
theorem lockstep_sameButSinks (debugLog errorLog : Bool) :
    Lockstep id (SameButSinks debugLog errorLog) where
  injective := Function.injective_id
  grammar h := by
    obtain ⟨journal, hsinks⟩ := h.engine
    rw [hsinks]
    rfl
  topics h := by
    obtain ⟨journal, hsinks⟩ := h.engine
    rw [hsinks, Topic.map_relabel_id]
    rfl
  emit event _ _ _ h := ⟨h.engine.emit event, h.report⟩
  record issue _ _ _ h := h.record issue
  putTopic name t _ _ h := by
    refine ⟨?_, h.report⟩
    rw [t.relabel_id]
    exact h.engine.step (fun e => { e with topics := e.topics.insert name t }) fun _ _ => rfl
  changeBotvars change _ _ h := ⟨h.engine.changeBotvars change, h.report⟩
  countScript h := ⟨h.engine, by rw [countScript, countScript, h.report]⟩
  countRules _ _ _ h := ⟨h.engine, by rw [countRules, countRules, h.report]⟩

end Loading

namespace Engine

variable {debugLog errorLog : Bool} {e e' : Engine}

/-- A load gives the same report in both engines. -/
theorem SameButSinks.load (h : SameButSinks debugLog errorLog e e') (source : Source) :
    InStep (SameButSinks debugLog errorLog) (e.load source) (e'.load source) := by
  have hreset := (h.emit (.loadingFrom source.description)).step resetTopics fun _ _ => rfl
  have hstart : (Loading.start source e).SameButSinks debugLog errorLog (Loading.start source e') :=
    ⟨hreset, rfl⟩
  have hdone := (Loading.lockstep_sameButSinks debugLog errorLog).done
    (fun issue _ _ h => h.record issue) hstart
  exact ⟨hdone.report, hdone.engine⟩

end Engine

/-! ## Operations -/

/-- Whether the answer to an operation shows which sinks are open. -/
def Operation.showsSinks : Operation → Bool
  | .config => true
  | .describe => true
  | _ => false

/-- Two answers are the same, but for what those that show the settings say of the sinks. -/
inductive Answer.SameButSinks (debugLog errorLog : Bool) : Answer → Answer → Prop
  | same (answer : Answer) : SameButSinks debugLog errorLog answer answer
  | config (c : Config) : SameButSinks debugLog errorLog (.config c)
    (.config { c with debugLog := debugLog, errorLog := errorLog })
  | description (e : Engine) : SameButSinks debugLog errorLog (.description e.describe)
    (.description (e.withSinks debugLog errorLog e.journal).describe)

namespace Engine

variable {debugLog errorLog : Bool} {e e' : Engine}

/-- An operation that does not show the sinks has the same answer in both engines. -/
theorem SameButSinks.perform_eq (h : SameButSinks debugLog errorLog e e') (o : Operation)
    (hshows : o.showsSinks = false) :
    InStep (SameButSinks debugLog errorLog) (e.perform o) (e'.perform o) := by
  obtain ⟨journal, hsinks⟩ := id h
  cases o with
  | load source =>
    obtain ⟨hreport, hafter⟩ := h.load source
    exact ⟨congrArg Answer.report hreport, hafter⟩
  | reply user message =>
    exact (lockstep_sameButSinks debugLog errorLog user).perform_reply message h
  | replyVerbose user message =>
    exact (lockstep_sameButSinks debugLog errorLog user).perform_replyVerbose message h
  | buildCache => exact ⟨rfl, h.buildCache⟩
  | ruleTable =>
    obtain ⟨journal, hbuilt⟩ := h.buildCache
    refine ⟨congrArg Answer.rules (ruleTable_congr ?_), h.buildCache⟩
    rw [hbuilt]
    rfl
  | addAlternate topic name value =>
    exact ⟨rfl, h.step (Engine.addAlternate topic name value) fun _ _ => rfl⟩
  | addSubstitution word replacement =>
    exact ⟨rfl, h.step (Engine.addSubstitution word replacement) fun _ _ => rfl⟩
  | changeBotvars change => exact ⟨by rw [hsinks]; rfl, h.changeBotvars change⟩
  | changeVars user change => exact ⟨by rw [hsinks]; rfl, h.changeVars user change⟩
  | setTopic user topic => exact ⟨rfl, h.step (Engine.setTopic user topic) fun _ _ => rfl⟩
  | resetUser user =>
    exact ⟨by rw [hsinks]; rfl, h.step (Engine.resetUser user) fun _ _ => rfl⟩
  | resetUsers => exact ⟨rfl, h.step Engine.resetUsers fun _ _ => rfl⟩
  | topicNames | ruleCount | topic | botvars | uservars | topicOf =>
    exact ⟨by rw [hsinks]; rfl, h⟩
  | config | describe => contradiction

/-- The answers to an operation are the same, but for what the settings say of the sinks. -/
theorem SameButSinks.perform (h : SameButSinks debugLog errorLog e e') (o : Operation) :
    Answer.SameButSinks debugLog errorLog (e.perform o).1 (e'.perform o).1 ∧
      SameButSinks debugLog errorLog (e.perform o).2 (e'.perform o).2 := by
  cases hshows : o.showsSinks with
  | false =>
    obtain ⟨hanswer, hafter⟩ := h.perform_eq o hshows
    rw [hanswer]
    exact ⟨.same _, hafter⟩
  | true =>
    obtain ⟨journal, hsinks⟩ := id h
    cases o with
    | config =>
      rw [hsinks]
      exact ⟨.config e.config, journal, rfl⟩
    | describe =>
      rw [hsinks]
      exact ⟨.description e, journal, rfl⟩
    | _ => contradiction

/-- The answers in a run are the same, but for what the settings say of the sinks. -/
theorem SameButSinks.performAll (h : SameButSinks debugLog errorLog e e')
    (operations : List Operation) :
    List.Forall₂ (Answer.SameButSinks debugLog errorLog) (e.performAll operations).1
        (e'.performAll operations).1 ∧
      SameButSinks debugLog errorLog (e.performAll operations).2
        (e'.performAll operations).2 := by
  induction operations generalizing e e' with
  | nil => exact ⟨.nil, h⟩
  | cons o rest ih =>
    obtain ⟨hanswer, hstep⟩ := h.perform o
    obtain ⟨hanswers, hafter⟩ := ih hstep
    exact ⟨.cons hanswer hanswers, hafter⟩

/-- A run in which nothing shows the sinks has the same answers in both engines. -/
theorem SameButSinks.performAll_eq (h : SameButSinks debugLog errorLog e e')
    {operations : List Operation} (hshows : ∀ o ∈ operations, o.showsSinks = false) :
    (e.performAll operations).1 = (e'.performAll operations).1 := by
  induction operations generalizing e e' with
  | nil => rfl
  | cons o rest ih =>
    obtain ⟨hfirst, hrest⟩ := List.forall_mem_cons.mp hshows
    obtain ⟨hanswer, hstep⟩ := h.perform_eq o hfirst
    exact congrArg₂ List.cons hanswer (ih hstep hrest)

/-- The log tells what the report of a load says, and it decides nothing. If warnings and errors are
written at all, those of a load are the problems of its report in order, but for declarations that
are not supported: duplicates as warnings, the others as errors. An engine with other sinks open and
with another log gives the same answers in every run, those that show the settings apart, which
differ in nothing but the sinks; and it has the same topics, users and bot variables in the end. -/
theorem log_reports_and_decides_nothing (e : Engine) :
    (∀ source, ∃ events, e.Warns (e.load source).2 events ∧
      events.map Event.line =
        if e.config.errorLog then (e.load source).1.issues.filterMap LoadIssue.line? else []) ∧
    ∀ debugLog errorLog journal operations, ∀ e', e' = e.withSinks debugLog errorLog journal →
      List.Forall₂ (Answer.SameButSinks debugLog errorLog) (e.performAll operations).1
        (e'.performAll operations).1 ∧
      ((∀ o ∈ operations, o.showsSinks = false) →
        (e.performAll operations).1 = (e'.performAll operations).1) ∧
      (e.performAll operations).2.topics = (e'.performAll operations).2.topics ∧
      (e.performAll operations).2.users = (e'.performAll operations).2.users ∧
      (e.performAll operations).2.botvars = (e'.performAll operations).2.botvars := by
  refine ⟨fun source => ?_, fun debugLog errorLog journal operations e' he' => ?_⟩
  · exact ⟨_, warns_load source e, LoadIssue.map_line_loudEvents _ _⟩
  · have hsinks : SameButSinks debugLog errorLog e e' := ⟨journal, he'⟩
    obtain ⟨hanswers, journal', hafter⟩ := hsinks.performAll operations
    refine ⟨hanswers, hsinks.performAll_eq, ?_⟩
    rw [hafter]
    exact ⟨rfl, rfl, rfl⟩

end Engine

end Rejoinder
