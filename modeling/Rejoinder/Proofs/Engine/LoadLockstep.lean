import Rejoinder.Proofs.Engine.Loading
import Rejoinder.Proofs.Topic.Relabel

/-!
# Loads in lockstep

Two loads that read the same scripts decide the same, whatever else is different about their engines
and reports. What may differ is a relation; `Loading.Lockstep` says that every step of a load keeps
it, and that related loads have the same grammar and the same topics, up to the identities of the
handlers. From that, whole scripts can be loaded into related loads (`Lockstep.loadScript`), the
loads can be finished (`Lockstep.finish`), and so can loads of one source (`Lockstep.done`).
-/

set_option autoImplicit false

namespace Rejoinder

/-- Whether a problem is one with a declaration of a script. -/
def LoadIssue.ofDeclaration : LoadIssue → Bool
  | .rule _ => true
  | .duplicateRule .. => true
  | .unsupported .. => true
  | .script _ => false
  | .noRules _ => false

namespace Loading

/-- An event is written during a load. -/
def emit (event : Event) (l : Loading) : Loading := ⟨l.engine.emit event, l.report⟩

/-- A topic is put among the others during a load. -/
def putTopic (name : String) (t : Topic) (l : Loading) : Loading :=
  ⟨{ l.engine with topics := l.engine.topics.insert name t }, l.report⟩

/-- The bot variables are changed during a load. -/
def changeBotvars (change : Vars → Vars) (l : Loading) : Loading :=
  ⟨l.engine.changeBotvars change, l.report⟩

/-- One more script is counted. -/
def countScript (l : Loading) : Loading :=
  ⟨l.engine, { l.report with scripts := l.report.scripts + 1 }⟩

/-- The report says how many rules there are. -/
def countRules (count : Nat) (l : Loading) : Loading :=
  ⟨l.engine, { l.report with rules := count }⟩

/-- A relation between loads that every step keeps. The topics are the same in related loads, up to
the identities of the handlers. Problems apart, a load writes nothing but debug messages. -/
structure Lockstep (f : Identity → Identity) (R : Loading → Loading → Prop) : Prop where
  injective : Function.Injective f
  grammar : ∀ {l l'}, R l l' → l.engine.grammar = l'.engine.grammar
  topics : ∀ {l l'}, R l l' → l.engine.topics = l'.engine.topics.map (Topic.relabel f)
  emit : ∀ event, event.level = .debug → ∀ {l l'}, R l l' → R (l.emit event) (l'.emit event)
  record : ∀ issue, issue.ofDeclaration = true → ∀ {l l'}, R l l' →
    R (l.record issue) (l'.record issue)
  putTopic : ∀ name t {l l'}, R l l' → R (l.putTopic name (t.relabel f)) (l'.putTopic name t)
  changeBotvars : ∀ change {l l'}, R l l' → R (l.changeBotvars change) (l'.changeBotvars change)
  countScript : ∀ {l l'}, R l l' → R l.countScript l'.countScript
  countRules : ∀ count {l l'}, R l l' → R (l.countRules count) (l'.countRules count)

namespace Lockstep

variable {f : Identity → Identity} {R : Loading → Loading → Prop} {l l' : Loading}

/-- In related loads a name has the same topic, up to the identities of the handlers. -/
theorem get?_topics (hR : Lockstep f R) (h : R l l') (name : String) :
    l.engine.topics.get? name = (l'.engine.topics.get? name).map (Topic.relabel f) := by
  rw [hR.topics h, Table.get?_map]

/-- Registering the same rule keeps two loads related. -/
theorem loadRule (hR : Lockstep f R) (topic script : String) (spec : RuleSpec) (h : R l l') :
    R (l.loadRule topic script (spec.relabel f)) (l'.loadRule topic script spec) := by
  have htopic : (l.engine.topics.get? topic).getD (Topic.new topic) =
      ((l'.engine.topics.get? topic).getD (Topic.new topic)).relabel f := by
    rw [hR.get?_topics h]
    cases l'.engine.topics.get? topic <;> rfl
  have hname : (spec.relabel f).name = spec.name := rfl
  rw [Loading.loadRule, Loading.loadRule, hR.grammar h, hname, htopic, Rule.ofSpec_relabel]
  cases Rule.ofSpec l'.engine.grammar (script ++ "." ++ spec.name) spec with
  | error error => exact hR.record _ rfl h
  | ok rule =>
    simp only [Except.map, Topic.insert_relabel hR.injective]
    cases ((l'.engine.topics.get? topic).getD (Topic.new topic)).insert rule with
    | mk t registration =>
      cases registration with
      | added => exact hR.emit _ rfl (hR.putTopic topic t h)
      | alreadyPresent => exact h
      | conflict existing => exact hR.record _ rfl h

/-- The same declaration keeps two loads related. -/
theorem loadDeclaration (hR : Lockstep f R) (topic script : String) (d : Declaration)
    (h : R l l') :
    R (l.loadDeclaration topic script (d.relabel f)) (l'.loadDeclaration topic script d) := by
  cases d with
  | rule spec => exact hR.loadRule topic script spec h
  | alternate name value => exact hR.record _ rfl h
  | substitution word replacement => exact hR.record _ rfl h

/-- Making a topic where it is missing keeps two loads related. -/
theorem ensureTopic (hR : Lockstep f R) (name : String) (h : R l l') :
    R ⟨l.engine.ensureTopic name, l.report⟩ ⟨l'.engine.ensureTopic name, l'.report⟩ := by
  have hcontains : l.engine.topics.contains name = l'.engine.topics.contains name := by
    rw [hR.topics h, Table.contains_map]
  rw [Engine.ensureTopic, Engine.ensureTopic, hcontains]
  split
  · exact h
  · exact hR.putTopic name (Topic.new name) h

/-- A script is loaded into related loads. -/
theorem loadScript (hR : Lockstep f R) (script : Script) (h : R l l') :
    R (l.loadScript (script.relabel f)) (l'.loadScript script) := by
  have hensured := hR.ensureTopic script.topicName (hR.emit (.loadingScript script.name) rfl h)
  have hsetup := hR.changeBotvars script.setup hensured
  rw [Loading.loadScript, Loading.loadScript, Script.relabel, List.foldl_map]
  refine List.foldl_rel (r := R) ?_ fun d _ _ _ h => hR.loadDeclaration _ _ d h
  exact hR.countScript hsetup

/-- Related loads have as many rules. -/
theorem ruleCount (hR : Lockstep f R) (h : R l l') : l.engine.ruleCount = l'.engine.ruleCount := by
  have hlength : ∀ t : Topic, (t.relabel f).rules.length = t.rules.length :=
    fun t => List.length_map _
  rw [Engine.ruleCount, Engine.ruleCount, hR.topics h, Table.values_map, List.foldr_map]
  simp only [hlength]

/-- Related loads are finished, where the names of the two sources may be different. -/
theorem finish (hR : Lockstep f R) (source source' : String) (h : R l l')
    (hnone : ∀ {l l'}, R l l' → R (l.record (.noRules source)) (l'.record (.noRules source'))) :
    R (l.finish source) (l'.finish source') := by
  rw [Loading.finish, Loading.finish, hR.ruleCount h]
  dsimp only
  split
  · exact hnone (hR.countRules _ h)
  · exact hR.countRules _ h

/-- The same source is loaded into related engines, its failures included. -/
theorem done {R : Loading → Loading → Prop} (hR : Lockstep id R)
    (hrecord : ∀ issue {l l'}, R l l' → R (l.record issue) (l'.record issue)) {source : Source}
    {e e' : Engine} (h : R (start source e) (start source e')) :
    R (done source e) (done source e') := by
  refine hR.finish _ _ (List.foldl_rel (r := R) h ?_) (hrecord _)
  intro entry _ l l' h
  cases entry with
  | error error => exact hrecord _ h
  | ok script =>
    have hscript := hR.loadScript script h
    rwa [script.relabel_id] at hscript

end Lockstep

end Loading

end Rejoinder
