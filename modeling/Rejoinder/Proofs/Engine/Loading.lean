import Rejoinder.Engine.Load
import Rejoinder.Proofs.Engine.Frame
import Rejoinder.Proofs.Outcome
import Rejoinder.Proofs.Table
import Rejoinder.Proofs.Topic.Index

/-!
# What a load keeps and reports

A source is a list of scripts and of reasons why scripts are missing, and every script is a list of
declarations. Put one behind the other, these are the encounters of a load (`Source.encounters`). On
each of them there is one verdict, which depends on the encounter and on the verdicts before it
only: the declaration of a rule is kept if both its texts are patterns and no rule that has been
kept in its topic has the same pair of patterns; otherwise it is a problem, unless the rule that has
the pair has the same handler.

`Engine.load_eq_verdicts` says that a load does what the verdicts say, and nothing else: the rules
of every topic are those that were kept in it, in order, and the report lists the problems, in
order. The verdicts are said without the engine and without the index of a topic, so that the two
sides of the theorem share nothing but the data. `Loading.Follows` is the invariant behind it: how a
load stands after some of the encounters.
-/

set_option autoImplicit false

namespace Rejoinder

namespace Loading

/-- A load before the first entry of its source. -/
def start (source : Source) (e : Engine) : Loading :=
  ⟨(e.emit (.loadingFrom source.description)).resetTopics, ⟨source.description, 0, 0, []⟩⟩

/-- A load when its source is done. -/
def done (source : Source) (e : Engine) : Loading :=
  (source.scripts.foldl loadEntry (start source e)).finish source.description

end Loading

/-- A load gives the report and the engine with which it ends. -/
theorem Engine.load_eq_done (source : Source) (e : Engine) :
    e.load source = ((Loading.done source e).report, (Loading.done source e).engine) := rfl

/-! ## What a load leaves alone -/

/-- A rule begins without compiled patterns. -/
theorem Rule.matcher_of_ofSpec_eq_ok {g : Grammar} {name : String} {spec : RuleSpec} {rule : Rule}
    (h : Rule.ofSpec g name spec = .ok rule) : rule.matcher = none := by
  obtain ⟨_, _, h⟩ := bind_eq_ok_iff.mp h
  obtain ⟨_, _, h⟩ := bind_eq_ok_iff.mp h
  obtain rfl := Except.ok.inj h
  rfl

/-- A property of engines that every step of a load keeps. -/
structure Engine.LoadInvariant (P : Engine → Prop) : Prop where
  emit : ∀ event e, P e → P (e.emit event)
  changeBotvars : ∀ change e, P e → P (e.changeBotvars change)
  ensureTopic : ∀ name e, P e → P (e.ensureTopic name)
  register : ∀ topic rule t e, rule.matcher = none →
    ((e.topics.get? topic).getD (Topic.new topic)).insert rule = (t, .added) → P e →
    P { e with topics := e.topics.insert topic t }

namespace Engine.LoadInvariant

variable {P : Engine → Prop}

/-- It is enough that a property is kept whatever topic is put among the others. -/
theorem of_putTopic (emit : ∀ event e, P e → P (e.emit event))
    (changeBotvars : ∀ change e, P e → P (e.changeBotvars change))
    (putTopic : ∀ name t e, P e → P { e with topics := e.topics.insert name t }) :
    LoadInvariant P := by
  refine ⟨emit, changeBotvars, ?_, ?_⟩
  · intro name e he
    rw [Engine.ensureTopic]
    split
    · exact he
    · exact putTopic _ _ _ he
  · exact fun _ _ _ _ _ _ he => putTopic _ _ _ he

variable (hP : LoadInvariant P)

include hP

/-- Recording a problem keeps what every change of an engine by a load keeps. -/
theorem record (issue : LoadIssue) {l : Loading} (hl : P l.engine) : P (l.record issue).engine :=
  hP.emit _ _ hl

/-- Registering a rule keeps what every change of an engine by a load keeps. -/
theorem loadRule (topic script : String) (spec : RuleSpec) {l : Loading} (hl : P l.engine) :
    P (l.loadRule topic script spec).engine := by
  rw [Loading.loadRule]
  cases hrule : Rule.ofSpec l.engine.grammar (script ++ "." ++ spec.name) spec with
  | error error => exact hP.record _ hl
  | ok rule =>
    dsimp only
    split
    · rename_i hadded
      exact hP.emit _ _ (hP.register _ _ _ _ (Rule.matcher_of_ofSpec_eq_ok hrule) hadded hl)
    · exact hl
    · exact hP.record _ hl

/-- A declaration keeps what every change of an engine by a load keeps. -/
theorem loadDeclaration (topic script : String) (d : Declaration) {l : Loading} (hl : P l.engine) :
    P (l.loadDeclaration topic script d).engine := by
  cases d with
  | rule spec => exact hP.loadRule topic script spec hl
  | alternate name value => exact hP.record _ hl
  | substitution word replacement => exact hP.record _ hl

/-- A script keeps what every change of an engine by a load keeps. -/
theorem loadScript (script : Script) {l : Loading} (hl : P l.engine) :
    P (l.loadScript script).engine := by
  have hensured :
      P ((l.engine.emit (.loadingScript script.name)).ensureTopic script.topicName) :=
    hP.ensureTopic _ _ (hP.emit _ _ hl)
  rw [Loading.loadScript]
  refine List.foldlRecOn script.declarations _ (motive := fun l : Loading => P l.engine) ?_ ?_
  · dsimp only
    exact hP.changeBotvars _ _ hensured
  · exact fun l hl d _ => hP.loadDeclaration _ _ d hl

/-- An entry of a source keeps what every change of an engine by a load keeps. -/
theorem loadEntry (entry : Except ScriptError Script) {l : Loading} (hl : P l.engine) :
    P (l.loadEntry entry).engine := by
  cases entry with
  | error error => exact hP.record _ hl
  | ok script => exact hP.loadScript script hl

/-- What holds of the engine without rules and is kept by every step holds after a load. -/
theorem load (source : Source) {e : Engine} (he : P (Loading.start source e).engine) :
    P (e.load source).2 := by
  have hentries : P (source.scripts.foldl Loading.loadEntry (Loading.start source e)).engine :=
    List.foldlRecOn source.scripts _ (motive := fun l : Loading => P l.engine) he
      fun l hl entry _ => hP.loadEntry entry hl
  rw [Engine.load_eq_done, Loading.done, Loading.finish]
  dsimp only
  split
  · exact hP.record _ hentries
  · exact hentries

end Engine.LoadInvariant

namespace Engine

/-- A load changes neither the settings nor the users, and the rules it leaves are not compiled. -/
theorem load_frame (source : Source) (e : Engine) :
    (e.load source).2.config = e.config ∧ (e.load source).2.grammar = e.grammar ∧
      (e.load source).2.users = e.users ∧ (e.load source).2.cacheBuilt = false := by
  have hP : LoadInvariant fun e' : Engine => e'.config = e.config ∧ e'.grammar = e.grammar ∧
      e'.users = e.users ∧ e'.cacheBuilt = false := by
    refine .of_putTopic ?_ ?_ ?_
    · intro event e' h
      simpa using h
    · exact fun _ _ h => h
    · exact fun _ _ _ h => h
  apply hP.load
  simp [Loading.start, resetTopics]

end Engine

/-! ## Verdicts -/

/-- What a load comes upon: the reason why a script is missing, or a declaration of a script. -/
inductive Encounter
  | missing (error : ScriptError)
  | declared (script : Script) (declaration : Declaration)

/-- What an entry of a source gives a load to deal with. -/
def Encounter.ofEntry : Except ScriptError Script → List Encounter
  | .ok script => script.declarations.map (.declared script)
  | .error error => [.missing error]

/-- What a load of a source comes upon: script by script, and in a script declaration by
declaration. -/
def Source.encounters (source : Source) : List Encounter :=
  source.scripts.flatMap Encounter.ofEntry

/-- What becomes of an encounter. -/
inductive Verdict
  /-- A rule is registered. -/
  | kept (topic : String) (rule : Rule)
  /-- A rule is left out that is registered already, with the same handler. -/
  | repeated
  | problem (issue : LoadIssue)

namespace Verdict

/-- Whether a rule is registered. -/
def isKept : Verdict → Bool
  | .kept _ _ => true
  | _ => false

/-- The rule that is kept, if it is kept in this topic. -/
def rule? (topic : String) : Verdict → Option Rule
  | .kept name rule => if name = topic then some rule else none
  | _ => none

/-- The problem that is put into the report, if there is one. -/
def issue? : Verdict → Option LoadIssue
  | .problem issue => some issue
  | _ => none

/-- The rules that are kept in a topic. -/
def keptIn (topic : String) (verdicts : List Verdict) : List Rule :=
  verdicts.filterMap (rule? topic)

end Verdict

namespace RuleSpec

/-- The patterns that the two texts of a declaration stand for, or which of them is no pattern, and
why. A blank text behind the first one stands for no pattern. -/
def patterns (g : Grammar) (spec : RuleSpec) :
    Except (PatternField × PatternError) (Pattern × Option Pattern) :=
  match g.parse spec.pattern with
  | .error error => .error (.pattern, error)
  | .ok pattern =>
    if (Text.trim spec.previous.toList).isEmpty then .ok (pattern, none)
    else
      match g.parse spec.previous with
      | .error error => .error (.previous, error)
      | .ok previous => .ok (pattern, some previous)

/-- The rule with these patterns and with the weight and the handler of a declaration. -/
def rule (g : Grammar) (name : String) (spec : RuleSpec) (pattern : Pattern)
    (previous : Option Pattern) : Rule where
  name := name
  weight := spec.weight
  score := g.score pattern
  pattern := pattern
  previous := previous
  patternText := g.format pattern
  previousText := previous.map g.format
  handler := spec.handler
  matcher := none

/-- The verdict on the declaration of a rule under a full name, if these are the rules that its
topic has kept so far. -/
def verdict (g : Grammar) (topic name : String) (kept : List Rule) (spec : RuleSpec) : Verdict :=
  match spec.patterns g with
  | .error (field, error) => .problem (.rule ⟨name, field, error⟩)
  | .ok (pattern, previous) =>
    match kept.find? fun r =>
      r.patternText = g.format pattern ∧ r.previousText = previous.map g.format with
    | none => .kept topic (spec.rule g name pattern previous)
    | some earlier =>
      if earlier.handler.identity = spec.handler.identity then .repeated
      else .problem (.duplicateRule topic spec.pattern spec.previous name earlier.name)

end RuleSpec

/-- The verdict on an encounter after those on the encounters before it. -/
def Encounter.verdict (g : Grammar) (before : List Verdict) : Encounter → Verdict
  | .missing error => .problem (.script error)
  | .declared script (.rule spec) =>
    spec.verdict g script.topicName (script.name ++ "." ++ spec.name)
      (Verdict.keptIn script.topicName before)
  | .declared script (.alternate name _) => .problem (.unsupported script.name .alternate name)
  | .declared script (.substitution word _) =>
    .problem (.unsupported script.name .substitution word)

/-- The verdicts on encounters that follow those with these verdicts. -/
def Encounter.verdicts (g : Grammar) (before : List Verdict) (encounters : List Encounter) :
    List Verdict :=
  encounters.foldl (fun before encounter => before ++ [encounter.verdict g before]) before

/-- The verdicts on everything that a load of a source comes upon. -/
def Source.verdicts (g : Grammar) (source : Source) : List Verdict :=
  Encounter.verdicts g [] source.encounters

/-- A rule can be made from a declaration if its texts are patterns. -/
theorem Rule.ofSpec_eq (g : Grammar) (name : String) (spec : RuleSpec) :
    Rule.ofSpec g name spec =
      match spec.patterns g with
      | .error (field, error) => .error ⟨name, field, error⟩
      | .ok (pattern, previous) => .ok (spec.rule g name pattern previous) := by
  rw [Rule.ofSpec, RuleSpec.patterns, Rule.parsePrevious]
  cases g.parse spec.pattern with
  | error error => rfl
  | ok pattern =>
    dsimp only
    split
    · rfl
    · cases g.parse spec.previous <;> rfl

/-! ## A load follows the verdicts -/

/-- How topics stand after some entries of a source, when these verdicts have been given. -/
structure TopicsFollow (entries : List (Except ScriptError Script)) (verdicts : List Verdict)
    (topics : Table String Topic) : Prop where
  indexed : ∀ name t, topics.get? name = some t → t.Indexed
  rules : ∀ name, ((topics.get? name).map Topic.rules).getD [] = Verdict.keptIn name verdicts
  alternates : ∀ name t, topics.get? name = some t →
    t.alternates = if name = defaultTopic then builtinAlternates else .empty
  present : ∀ name, topics.contains name = true ↔
    name = defaultTopic ∨ ∃ script, .ok script ∈ entries ∧ script.topicName = name
  count : topics.values.foldr (fun t n => t.rules.length + n) 0 = verdicts.countP Verdict.isKept

namespace TopicsFollow

variable {entries : List (Except ScriptError Script)} {verdicts : List Verdict}
  {topics : Table String Topic}

/-- To begin with, there is the default topic without rules. -/
theorem start : TopicsFollow [] [] Engine.initialTopics := by
  have hget : ∀ name, Engine.initialTopics.get? name =
      if name = defaultTopic then
        some { Topic.new defaultTopic with alternates := builtinAlternates } else none :=
    fun name => Table.get?_insert
  refine ⟨?_, ?_, ?_, ?_, rfl⟩
  · intro name t ht
    rw [hget] at ht
    split at ht
    · obtain rfl := Option.some.inj ht
      exact fun _ => rfl
    · simp at ht
  · intro name
    rw [hget]
    split <;> rfl
  · intro name t ht
    rw [hget] at ht
    split at ht
    · rename_i hname
      obtain rfl := Option.some.inj ht
      rw [if_pos hname]
    · simp at ht
  · intro name
    simp [Table.contains, hget]

/-- A script that is missing changes no topic. -/
theorem missing (h : TopicsFollow entries verdicts topics) (error : ScriptError) :
    TopicsFollow (entries ++ [.error error]) verdicts topics := by
  refine ⟨h.indexed, h.rules, h.alternates, ?_, h.count⟩
  intro name
  rw [h.present]
  simp

/-- A verdict that keeps no rule changes nothing. -/
theorem skip (h : TopicsFollow entries verdicts topics) {verdict : Verdict}
    (hskip : verdict.isKept = false) : TopicsFollow entries (verdicts ++ [verdict]) topics := by
  have hrule : ∀ name, Verdict.rule? name verdict = none := by
    intro name
    cases verdict with
    | kept => simp [Verdict.isKept] at hskip
    | repeated => rfl
    | problem => rfl
  refine ⟨h.indexed, ?_, h.alternates, h.present, ?_⟩
  · intro name
    rw [h.rules, Verdict.keptIn, Verdict.keptIn, List.filterMap_append]
    simp [hrule name]
  · rw [h.count, List.countP_append]
    simp [hskip]

/-- A topic is put at its name if it has the rules that the verdicts on the name leave, and if what
has come since concerns no other name. -/
theorem insert (h : TopicsFollow entries verdicts topics) {name : String} {t : Topic}
    {entries' : List (Except ScriptError Script)} {verdicts' : List Verdict}
    (indexed : t.Indexed) (rules : t.rules = Verdict.keptIn name verdicts')
    (alternates : t.alternates = if name = defaultTopic then builtinAlternates else .empty)
    (others : ∀ other, other ≠ name →
      Verdict.keptIn other verdicts' = Verdict.keptIn other verdicts)
    (present : ∀ other,
      (other = defaultTopic ∨ ∃ script, .ok script ∈ entries' ∧ script.topicName = other) ↔
        other = name ∨
          (other = defaultTopic ∨ ∃ script, .ok script ∈ entries ∧ script.topicName = other))
    (count : verdicts'.countP Verdict.isKept + (Verdict.keptIn name verdicts).length =
      verdicts.countP Verdict.isKept + t.rules.length) :
    TopicsFollow entries' verdicts' (topics.insert name t) := by
  constructor
  case indexed =>
    intro other t' ht'
    rw [Table.get?_insert] at ht'
    split at ht'
    · obtain rfl := Option.some.inj ht'
      exact indexed
    · exact h.indexed other t' ht'
  case rules =>
    intro other
    rw [Table.get?_insert]
    split
    · rename_i hother
      rw [hother]
      exact rules
    · rename_i hother
      rw [h.rules, others other hother]
  case alternates =>
    intro other t' ht'
    rw [Table.get?_insert] at ht'
    split at ht'
    · rename_i hother
      obtain rfl := Option.some.inj ht'
      rw [hother]
      exact alternates
    · exact h.alternates other t' ht'
  case present =>
    intro other
    rw [Table.contains_insert, h.present, present]
  case count =>
    have hsum := Table.foldr_values_insert (fun t : Topic => t.rules.length) topics name t
    have hold : ((topics.get? name).map fun t => t.rules.length).getD 0 =
        (Verdict.keptIn name verdicts).length := by
      rw [← h.rules]
      cases topics.get? name <;> rfl
    rw [hold, h.count] at hsum
    omega

/-- A script has its topic, which begins empty if it is new. -/
theorem ensure (h : TopicsFollow entries verdicts topics) (script : Script) {e : Engine}
    (he : e.topics = topics) :
    TopicsFollow (entries ++ [.ok script]) verdicts (e.ensureTopic script.topicName).topics := by
  subst he
  have hpresent : ∀ name, (name = defaultTopic ∨
      ∃ s, .ok s ∈ entries ++ [.ok script] ∧ s.topicName = name) ↔ name = script.topicName ∨
        (name = defaultTopic ∨ ∃ s, .ok s ∈ entries ∧ s.topicName = name) := by
    intro name
    simp only [List.mem_append, List.mem_singleton, Except.ok.injEq, or_and_right, exists_or,
      exists_eq_left]
    rw [← or_assoc, or_comm, eq_comm]
  by_cases hold : e.topics.contains script.topicName = true
  · rw [Engine.ensureTopic, if_pos hold]
    refine ⟨h.indexed, h.rules, h.alternates, ?_, h.count⟩
    intro name
    rw [hpresent, ← h.present, iff_or_self]
    rintro rfl
    exact hold
  · rw [Engine.ensureTopic, if_neg hold]
    have hother : script.topicName ≠ defaultTopic := fun heq => hold ((h.present _).mpr (.inl heq))
    have hnone : Verdict.keptIn script.topicName verdicts = [] := by
      have hget : e.topics.get? script.topicName = none := by simpa [Table.contains] using hold
      rw [← h.rules, hget]
      rfl
    refine h.insert (Topic.indexed_new _) hnone.symm ?_ (fun _ _ => rfl) hpresent ?_
    · rw [if_neg hother]
      rfl
    · rw [hnone]
      rfl

/-- A rule that is kept goes behind the other rules of its topic. -/
theorem keep (h : TopicsFollow entries verdicts topics) {script : Script}
    (hscript : .ok script ∈ entries) {t : Topic} (ht : topics.get? script.topicName = some t)
    {rule : Rule} (hnew : t.rules.find? (fun r => r.key = rule.key) = none) :
    TopicsFollow entries (verdicts ++ [.kept script.topicName rule])
      (topics.insert script.topicName { t with
        rules := t.rules ++ [rule], index := t.index.insert rule.key t.rules.length }) := by
  have hrules : t.rules = Verdict.keptIn script.topicName verdicts := by
    rw [← h.rules, ht]
    rfl
  refine h.insert ((h.indexed _ t ht).append hnew) ?_ (h.alternates _ t ht) ?_ ?_ ?_
  · rw [hrules, Verdict.keptIn, Verdict.keptIn, List.filterMap_append]
    simp [Verdict.rule?]
  · intro other hother
    have hskip : Verdict.rule? other (.kept script.topicName rule) = none :=
      if_neg fun heq => hother heq.symm
    rw [Verdict.keptIn, Verdict.keptIn, List.filterMap_append]
    simp [hskip]
  · intro other
    rw [iff_or_self]
    rintro rfl
    exact .inr ⟨script, hscript, rfl⟩
  · have hkept : [Verdict.kept script.topicName rule].countP Verdict.isKept = 1 := rfl
    rw [← hrules, List.countP_append, hkept, List.length_append, List.length_singleton]
    omega

end TopicsFollow

/-- How a load stands after some entries of a source, when these verdicts have been given. -/
structure Loading.Follows (g : Grammar) (source : String)
    (entries : List (Except ScriptError Script)) (verdicts : List Verdict) (l : Loading) :
    Prop where
  grammar : l.engine.grammar = g
  source : l.report.source = source
  topics : TopicsFollow entries verdicts l.engine.topics
  scripts : l.report.scripts = entries.countP Except.isOk
  issues : l.report.issues = verdicts.filterMap Verdict.issue?

namespace Loading.Follows

variable {g : Grammar} {source : String} {entries : List (Except ScriptError Script)}
  {verdicts : List Verdict} {l : Loading}

/-- A problem that is recorded is one verdict more. -/
theorem record (h : l.Follows g source entries verdicts) (issue : LoadIssue) :
    (l.record issue).Follows g source entries (verdicts ++ [.problem issue]) := by
  refine ⟨?_, h.source, ?_, h.scripts, ?_⟩
  · rw [Loading.record, Engine.grammar_emit]
    exact h.grammar
  · rw [Loading.record, Engine.topics_emit]
    exact h.topics.skip rfl
  · rw [Loading.record, List.filterMap_append, ← h.issues]
    rfl

/-- What becomes of a rule is the verdict on it. -/
theorem loadRule (h : l.Follows g source entries verdicts) {script : Script}
    (hscript : .ok script ∈ entries) (spec : RuleSpec) :
    (l.loadRule script.topicName script.name spec).Follows g source entries
      (verdicts ++ [Encounter.verdict g verdicts (.declared script (.rule spec))]) := by
  obtain ⟨t, ht⟩ := Table.contains_iff.mp
    ((h.topics.present script.topicName).mpr (.inr ⟨script, hscript, rfl⟩))
  have hindexed := h.topics.indexed _ t ht
  have hrules : Verdict.keptIn script.topicName verdicts = t.rules := by
    rw [← h.topics.rules, ht]
    rfl
  rw [Encounter.verdict, RuleSpec.verdict, hrules, Loading.loadRule, h.grammar, Rule.ofSpec_eq, ht]
  cases spec.patterns g with
  | error failure => exact h.record _
  | ok patterns =>
    obtain ⟨pattern, previous⟩ := patterns
    dsimp only [Option.getD_some]
    -- The pair of patterns of a rule is compared as one key by the topic, and field by field here.
    have hkeys : (fun r : Rule => decide (r.patternText = g.format pattern ∧
          r.previousText = previous.map g.format)) =
        fun r : Rule => decide (r.key =
          (spec.rule g (script.name ++ "." ++ spec.name) pattern previous).key) := by
      funext r
      simp only [Rule.key, RuleSpec.rule, Prod.mk.injEq]
    rw [hkeys]
    cases hfind : t.rules.find? fun r => decide (r.key =
        (spec.rule g (script.name ++ "." ++ spec.name) pattern previous).key) with
    | none =>
      rw [hindexed.insert_of_new hfind]
      refine ⟨?_, h.source, ?_, h.scripts, ?_⟩
      · simpa using h.grammar
      · simp only [Engine.topics_emit]
        exact h.topics.keep hscript ht hfind
      · rw [List.filterMap_append, ← h.issues]
        simp [Verdict.issue?]
    | some earlier =>
      dsimp only
      by_cases hsame : earlier.handler.identity = spec.handler.identity
      · rw [if_pos hsame, hindexed.insert_of_same hfind hsame]
        refine ⟨h.grammar, h.source, h.topics.skip rfl, h.scripts, ?_⟩
        rw [List.filterMap_append, ← h.issues]
        simp [Verdict.issue?]
      · rw [if_neg hsame, hindexed.insert_of_conflict hfind hsame]
        exact h.record _

/-- What becomes of a declaration is the verdict on it. -/
theorem loadDeclaration (h : l.Follows g source entries verdicts) {script : Script}
    (hscript : .ok script ∈ entries) (d : Declaration) :
    (l.loadDeclaration script.topicName script.name d).Follows g source entries
      (verdicts ++ [Encounter.verdict g verdicts (.declared script d)]) := by
  cases d with
  | rule spec => exact h.loadRule hscript spec
  | alternate name value => exact h.record _
  | substitution word replacement => exact h.record _

/-- What becomes of the declarations of a script are the verdicts on them, in order. -/
theorem loadDeclarations (h : l.Follows g source entries verdicts) {script : Script}
    (hscript : .ok script ∈ entries) (declarations : List Declaration) :
    (declarations.foldl (Loading.loadDeclaration script.topicName script.name) l).Follows g source
      entries
      (Encounter.verdicts g verdicts (declarations.map (.declared script))) := by
  induction declarations generalizing l verdicts with
  | nil => exact h
  | cons d rest ih => exact ih (h.loadDeclaration hscript d)

/-- What becomes of a script are the verdicts on its declarations. -/
theorem loadScript (h : l.Follows g source entries verdicts) (script : Script) :
    (l.loadScript script).Follows g source (entries ++ [.ok script])
      (Encounter.verdicts g verdicts (script.declarations.map (.declared script))) := by
  have hscript : .ok script ∈ entries ++ [.ok script] :=
    List.mem_append_right _ (List.mem_singleton_self _)
  rw [Loading.loadScript]
  refine Follows.loadDeclarations ?_ hscript script.declarations
  refine ⟨?_, h.source, ?_, ?_, h.issues⟩
  · have hgrammar : ∀ name (e : Engine), (e.ensureTopic name).grammar = e.grammar := by
      intro name e
      rw [Engine.ensureTopic]
      split <;> rfl
    simpa [Engine.changeBotvars, hgrammar] using h.grammar
  · exact h.topics.ensure script (Engine.topics_emit _ _)
  · rw [List.countP_append, ← h.scripts]
    rfl

/-- What becomes of an entry are the verdicts on what it is met with. -/
theorem loadEntry (h : l.Follows g source entries verdicts) (entry : Except ScriptError Script) :
    (l.loadEntry entry).Follows g source (entries ++ [entry])
      (Encounter.verdicts g verdicts (Encounter.ofEntry entry)) := by
  cases entry with
  | error error =>
    have hrecord := h.record (.script error)
    refine ⟨hrecord.grammar, hrecord.source, hrecord.topics.missing error, ?_, hrecord.issues⟩
    rw [List.countP_append]
    exact hrecord.scripts
  | ok script => exact h.loadScript script

/-- A load follows the verdicts entry by entry. -/
theorem loadEntries (h : l.Follows g source entries verdicts)
    (more : List (Except ScriptError Script)) :
    (more.foldl Loading.loadEntry l).Follows g source (entries ++ more)
      (Encounter.verdicts g verdicts (more.flatMap Encounter.ofEntry)) := by
  induction more generalizing l entries verdicts with
  | nil => simpa [Encounter.verdicts] using h
  | cons entry more ih =>
    have hrest := ih (h.loadEntry entry)
    rw [List.append_assoc] at hrest
    rwa [List.flatMap_cons, Encounter.verdicts, List.foldl_append]

/-- The report says at last how many rules were kept, and that there were none if so. -/
theorem finish (h : l.Follows g source entries verdicts) :
    TopicsFollow entries verdicts (l.finish source).engine.topics ∧
      (l.finish source).report =
        { source := source
          scripts := entries.countP Except.isOk
          rules := verdicts.countP Verdict.isKept
          issues := verdicts.filterMap Verdict.issue? ++
            if verdicts.any Verdict.isKept then [] else [.noRules source] } := by
  -- The rules are counted in the topics at the end, and the verdicts one by one.
  have hcount : l.engine.ruleCount = verdicts.countP Verdict.isKept := h.topics.count
  rw [Loading.finish, hcount, ← h.scripts, ← h.issues, ← h.source]
  dsimp only
  by_cases hnone : verdicts.countP Verdict.isKept = 0
  · have hany : verdicts.any Verdict.isKept = false := by
      rw [List.any_eq_false]
      exact List.countP_eq_zero.mp hnone
    rw [if_pos hnone, hany]
    refine ⟨?_, rfl⟩
    rw [Loading.record, Engine.topics_emit]
    exact h.topics
  · have hany : verdicts.any Verdict.isKept = true := by
      rw [List.any_eq_true]
      exact List.countP_pos_iff.mp (Nat.pos_of_ne_zero hnone)
    rw [if_neg hnone, hany]
    exact ⟨h.topics, by simp⟩

end Loading.Follows

/-- A load begins without entries and without verdicts. -/
theorem Loading.follows_start (source : Source) (e : Engine) :
    (start source e).Follows e.grammar source.description [] [] :=
  ⟨Engine.grammar_emit _ _, rfl, TopicsFollow.start, rfl, rfl⟩

namespace Engine

/-- A load keeps and reports what the verdicts on its encounters say: the rules of every topic are
those that are kept in it, in order, and the report counts the kept rules and lists the problems, in
order, with one more problem behind them if no rule is kept at all. Apart from that there are the
topics of the scripts and the default topic, which have the alternates that they begin with, and the
settings are those from before. -/
theorem load_eq_verdicts (source : Source) (e : Engine) :
    (∀ topic, (((e.load source).2.topics.get? topic).map Topic.rules).getD [] =
        Verdict.keptIn topic (source.verdicts e.grammar)) ∧
      (e.load source).1 =
        { source := source.description
          scripts := source.scripts.countP Except.isOk
          rules := (source.verdicts e.grammar).countP Verdict.isKept
          issues := (source.verdicts e.grammar).filterMap Verdict.issue? ++
            if (source.verdicts e.grammar).any Verdict.isKept then []
            else [.noRules source.description] } ∧
      (∀ topic t, (e.load source).2.topics.get? topic = some t →
        t.alternates = if topic = defaultTopic then builtinAlternates else .empty) ∧
      (∀ topic, (e.load source).2.topics.contains topic = true ↔
        topic = defaultTopic ∨ ∃ script, .ok script ∈ source.scripts ∧ script.topicName = topic) ∧
      (e.load source).2.config = e.config := by
  have hstart := Loading.follows_start source e
  obtain ⟨htopics, hreport⟩ := (hstart.loadEntries source.scripts).finish
  refine ⟨?_, ?_, ?_, ?_, (load_frame source e).1⟩
  · exact htopics.rules
  · exact hreport
  · exact htopics.alternates
  · exact htopics.present

end Engine

end Rejoinder
