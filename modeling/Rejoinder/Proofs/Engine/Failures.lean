import Rejoinder.Proofs.Engine.LoadLockstep
import Rejoinder.Proofs.Engine.Prepared
import Rejoinder.Proofs.Script.Faults

/-!
# Scripts that fail

An entry of a source that fails leaves nothing behind but one problem in the report. Two loads are
compared: one that comes upon entries that fail, and one of the same source without them. After each
entry the two engines are the same but for their events, and the two reports differ by the failures
so far (`Loading.Skips`). An entry that fails is a step of the first load alone, and any other entry
is loaded in lockstep.
-/

set_option autoImplicit false

namespace Rejoinder

/-- The engine in which all handlers have other identities. -/
def Engine.relabel (f : Identity → Identity) (e : Engine) : Engine :=
  { e with topics := e.topics.map (Topic.relabel f) }

/-- An engine whose identities are kept is the engine itself. -/
theorem Engine.relabel_id (e : Engine) : e.relabel id = e := by
  rw [relabel, Topic.map_relabel_id]

/-- The reason why a script is missing, if that is the problem. -/
def LoadIssue.script? : LoadIssue → Option ScriptError
  | .script error => some error
  | _ => none

/-- One report lists the failures of some scripts, and the other one lists none. They count the same
scripts and rules, and the problems with declarations are the same and in the same order. -/
structure LoadReport.SameBut (failures : List ScriptError) (r r' : LoadReport) : Prop where
  scripts : r.scripts = r'.scripts
  rules : r.rules = r'.rules
  ofDeclarations :
    r.issues.filter LoadIssue.ofDeclaration = r'.issues.filter LoadIssue.ofDeclaration
  failures : r.issues.filterMap LoadIssue.script? = failures
  noFailures : r'.issues.filterMap LoadIssue.script? = []

namespace Loading

/-- How a load stands beside one that has not come upon these failures. -/
structure Skips (f : Identity → Identity) (failures : List ScriptError) (l l' : Loading) :
    Prop where
  engine : l.engine.clearEvents = l'.engine.clearEvents.relabel f
  report : l.report.SameBut failures l'.report

variable {f : Identity → Identity} {failures : List ScriptError} {l l' : Loading}

/-- A problem that is met on both sides. It may be put into different words if it is none with a
declaration. -/
theorem Skips.record (h : l.Skips f failures l') {issue issue' : LoadIssue}
    (hsame : [issue].filter LoadIssue.ofDeclaration = [issue'].filter LoadIssue.ofDeclaration)
    (hissue : issue.script? = none) (hissue' : issue'.script? = none) :
    (l.record issue).Skips f failures (l'.record issue') := by
  obtain ⟨hengine, hscripts, hrules, hdeclarations, hfailures, hnone⟩ := h
  refine ⟨?_, hscripts, hrules, ?_, ?_, ?_⟩
  · rw [Loading.record, Loading.record, Engine.clearEvents_emit, Engine.clearEvents_emit, hengine]
  · simp only [Loading.record, List.filter_append, hdeclarations, hsame]
  · simp [Loading.record, hfailures, hissue]
  · simp [Loading.record, hnone, hissue']

/-- A failure is met by the first load alone. -/
theorem Skips.fail (h : l.Skips f failures l') (error : ScriptError) :
    (l.record (.script error)).Skips f (failures ++ [error]) l' := by
  obtain ⟨hengine, hscripts, hrules, hdeclarations, hfailures, hnone⟩ := h
  refine ⟨?_, hscripts, hrules, ?_, ?_, hnone⟩
  · rw [Loading.record, Engine.clearEvents_emit, hengine]
  · simp [Loading.record, hdeclarations, LoadIssue.ofDeclaration]
  · simp [Loading.record, hfailures, LoadIssue.script?]

/-- Two loads of which one has come upon more failures stay side by side. -/
theorem lockstep_skips (hf : Function.Injective f) (failures : List ScriptError) :
    Lockstep f (Skips f failures) where
  injective := hf
  grammar h := (congrArg Engine.grammar h.engine :)
  topics h := (congrArg Engine.topics h.engine :)
  emit event _ l l' h := by
    refine ⟨?_, h.report⟩
    rw [Loading.emit, Loading.emit, Engine.clearEvents_emit, Engine.clearEvents_emit, h.engine]
  record issue hissue l l' h := by
    apply h.record rfl
    all_goals cases issue <;> first | rfl | contradiction
  putTopic name t l l' h := by
    refine ⟨?_, h.report⟩
    have hput := congrArg (fun e : Engine =>
      { e with topics := e.topics.insert name (t.relabel f) }) h.engine
    simp only [Engine.relabel, ← Table.map_insert] at hput
    exact hput
  changeBotvars change _ _ h :=
    ⟨(congrArg (Engine.changeBotvars change) h.engine :), h.report⟩
  countScript h := by
    obtain ⟨hengine, hscripts, hrules, hdeclarations, hfailures, hnone⟩ := h
    exact ⟨hengine, congrArg (· + 1) hscripts, hrules, hdeclarations, hfailures, hnone⟩
  countRules count _ _ h := by
    obtain ⟨hengine, hscripts, _, hdeclarations, hfailures, hnone⟩ := h
    exact ⟨hengine, hscripts, rfl, hdeclarations, hfailures, hnone⟩

/-- Entries that fail are skipped, and the others are loaded in lockstep. -/
theorem Skips.loadEntries (hf : Function.Injective f) (h : l.Skips f failures l')
    {entries : List (Except ScriptError Script)} {scripts : List Script}
    (hscripts : entries.filterMap Except.toOption = scripts.map (Script.relabel f)) :
    (entries.foldl loadEntry l).Skips f (failures ++ entries.filterMap error?)
      ((scripts.map .ok).foldl loadEntry l') := by
  -- On the entries of the first load; the second one moves only where an entry is a script.
  induction entries generalizing failures scripts l l' with
  | nil =>
    obtain rfl := List.map_eq_nil_iff.mp hscripts.symm
    simpa using h
  | cons entry rest ih =>
    cases entry with
    | error error =>
      have hrest := ih (h.fail error) hscripts
      rwa [List.append_assoc] at hrest
    | ok script =>
      obtain ⟨script', rest', rfl, rfl, hrest⟩ := List.map_eq_cons_iff.mp hscripts.symm
      exact ih ((lockstep_skips hf failures).loadScript script' h) hrest.symm

end Loading

/-! ## Sources without the entries that fail -/

/-- A registry without the entries that fail. -/
def Registry.withoutFailures (r : Registry) : Registry := ⟨r.scripts.filter Except.isOk⟩

/-- The scripts of a registry without its failures are those that it has. -/
theorem Registry.filterMap_toOption_withoutFailures (r : Registry) :
    r.withoutFailures.scripts.filterMap Except.toOption =
      r.scripts.filterMap Except.toOption := by
  rw [withoutFailures, List.filterMap_filter]
  apply List.filterMap_congr
  intro entry _
  cases entry <;> rfl

/-- A registry without its failures has none. -/
theorem Registry.filterMap_error?_withoutFailures (r : Registry) :
    r.withoutFailures.scripts.filterMap error? = [] := by
  rw [withoutFailures, List.filterMap_filter, List.filterMap_eq_nil_iff]
  intro entry _
  cases entry <;> rfl

namespace Engine

/-- If two sources have the same scripts, up to the identities of the handlers, and nothing fails in
the second one, the failures in the first one are the only difference between the loads. -/
theorem load_skips {f : Identity → Identity} (hf : Function.Injective f) {source source' : Source}
    (hscripts : source.scripts.filterMap Except.toOption =
      (source'.scripts.filterMap Except.toOption).map (Script.relabel f))
    (hsound : source'.scripts.filterMap error? = []) (e : Engine) :
    (e.load source).2.clearEvents = (e.load source').2.clearEvents.relabel f ∧
      (e.load source).1.SameBut (source.scripts.filterMap error?) (e.load source').1 := by
  have hsame : (e.emit (.loadingFrom source.description)).clearEvents =
      (e.emit (.loadingFrom source'.description)).clearEvents := by
    rw [clearEvents_emit, clearEvents_emit]
  have hstart : (Loading.start source e).Skips f [] (Loading.start source' e) :=
    ⟨(congrArg Engine.resetTopics hsame :), rfl, rfl, rfl, rfl, rfl⟩
  have hentries := hstart.loadEntries hf hscripts
  rw [map_ok_filterMap_toOption hsound, List.nil_append] at hentries
  have hdone := (Loading.lockstep_skips hf _).finish source.description source'.description hentries
    fun h => h.record rfl rfl rfl
  exact ⟨hdone.engine, hdone.report⟩

/-- A script that fails is all or nothing. Take the entries that fail out of a registry, or the
files with faults out of a directory: a load comes to the same engine, but for the events. The
reports count the same scripts and rules and list the same problems with declarations, and the full
one has one more problem for each entry that fails, in order. The handlers of a directory are told
apart by the places of their files, which are counted anew. -/
theorem load_without_failures (e : Engine) :
    (∀ registry : Registry,
      let full := e.load registry.source
      let sound := e.load registry.withoutFailures.source
      full.2.clearEvents = sound.2.clearEvents ∧
        full.1.SameBut (registry.scripts.filterMap error?) sound.1) ∧
      ∀ path entries,
        let full := e.load (Directory.source path (.listed entries))
        let sound := e.load (Directory.source path (.listed (Directory.withoutFaults path entries)))
        ∃ place : Nat → Nat, StrictMono place ∧
          full.2.clearEvents = sound.2.clearEvents.relabel (Identity.renumber place) ∧
          full.1.SameBut ((Directory.scriptFiles entries).filterMap fun f =>
            Directory.fault? (Directory.filePath path f.1) f.2) sound.1 := by
  constructor
  · intro registry full sound
    have hscripts : registry.source.scripts.filterMap Except.toOption =
        (registry.withoutFailures.source.scripts.filterMap Except.toOption).map
          (Script.relabel id) := by
      have hid : Script.relabel id = id := funext Script.relabel_id
      rw [hid, List.map_id]
      exact registry.filterMap_toOption_withoutFailures.symm
    obtain ⟨hengine, hreport⟩ := load_skips Function.injective_id hscripts
      registry.filterMap_error?_withoutFailures e
    rw [relabel_id] at hengine
    exact ⟨hengine, hreport⟩
  · intro path entries full sound
    obtain ⟨place, hmono, hscripts⟩ := Directory.exists_renumbering_source path entries
    obtain ⟨hengine, hreport⟩ := load_skips (Identity.renumber_injective hmono.injective) hscripts
      (Directory.filterMap_error?_withoutFaults path entries) e
    rw [Directory.filterMap_error?_source] at hreport
    exact ⟨place, hmono, hengine, hreport⟩

end Engine

end Rejoinder
