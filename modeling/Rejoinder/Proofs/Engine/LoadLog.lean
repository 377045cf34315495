import Rejoinder.Proofs.Engine.LoadLockstep
import Rejoinder.Proofs.Engine.Warnings

/-!
# The log of a load

A load keeps every problem in its report and writes it to the log, at the level of the problem.
Beside that it writes debug messages only, which the setup of a script may switch on or off in the
middle. So at every step of a load the warnings and errors written so far are those of the problems
in the report so far, if the settings do not silence them (`Loading.Logged`), and so are they in the
end (`Engine.warns_load`).

What is said of one load here is a relation between loads all the same, of a load with itself. So
the steps need not be gone through for it: `Loading.Lockstep` has done that.
-/

set_option autoImplicit false

namespace Rejoinder

/-- The line of the log for a problem, if the problem is worth a warning or an error: its level and
its words. Duplicates are warned of, and declarations that are not supported are worth neither. -/
def LoadIssue.line? (issue : LoadIssue) : Option (Level × String) :=
  match issue with
  | .unsupported .. => none
  | .duplicateRule .. => some (.warn, issue.message)
  | .script _ | .rule _ | .noRules _ => some (.error, issue.message)

/-- The level of an event and its words. -/
def Event.line (event : Event) : Level × String := (event.level, event.message)

/-- The events with which problems are written to the log, as warnings and errors, in order. -/
def LoadIssue.loudEvents (errorLog : Bool) (issues : List LoadIssue) : List Event :=
  (issues.map Event.issue).filter fun event => event.isLoud && errorLog

/-- The events for two lists of problems stand one after the other. -/
theorem LoadIssue.loudEvents_append (errorLog : Bool) (issues issues' : List LoadIssue) :
    loudEvents errorLog (issues ++ issues') =
      loudEvents errorLog issues ++ loudEvents errorLog issues' := by
  rw [loudEvents, List.map_append, List.filter_append]
  rfl

/-- The warnings and errors for problems are their lines, or nothing if they are silenced. -/
theorem LoadIssue.map_line_loudEvents (errorLog : Bool) (issues : List LoadIssue) :
    (loudEvents errorLog issues).map Event.line =
      if errorLog then issues.filterMap line? else [] := by
  cases errorLog with
  | false => simp [loudEvents]
  | true =>
    induction issues with
    | nil => rfl
    | cons issue rest ih =>
      rw [← List.singleton_append, loudEvents_append, List.map_append, ih, if_pos rfl, if_pos rfl,
        List.filterMap_append]
      cases issue <;> rfl

namespace Loading

/-- A load that began with this engine has written the warnings and errors that its report calls
for. -/
structure Logged (e : Engine) (l : Loading) : Prop where
  config : l.engine.config = e.config
  warns : e.Warns l.engine (LoadIssue.loudEvents e.config.errorLog l.report.issues)

variable {e : Engine} {l : Loading}

/-- A debug message is not in the report. -/
theorem Logged.emit (h : Logged e l) {event : Event} (hlevel : event.level = .debug) :
    Logged e (l.emit event) := by
  refine ⟨(Engine.config_emit _ _).trans h.config, ?_⟩
  have hwarns := h.warns.trans (Engine.warns_emit_debug event hlevel l.engine)
  rwa [List.append_nil] at hwarns

/-- A problem is in the report and, if it is worth a warning or an error, in the log. -/
theorem Logged.record (h : Logged e l) (issue : LoadIssue) : Logged e (l.record issue) := by
  refine ⟨(Engine.config_emit _ _).trans h.config, ?_⟩
  have hissue := Engine.warns_emit (.issue issue) l.engine
  rw [h.config] at hissue
  have hwarns := h.warns.trans hissue
  have hissues : (l.record issue).report.issues = l.report.issues ++ [issue] := rfl
  rw [hissues, LoadIssue.loudEvents_append]
  exact hwarns

/-- A step that writes nothing and reports nothing. -/
theorem Logged.congr (h : Logged e l) {l' : Loading} (hconfig : l'.engine.config = l.engine.config)
    (hjournal : l'.engine.journal = l.engine.journal)
    (hissues : l'.report.issues = l.report.issues) : Logged e l' := by
  refine ⟨hconfig.trans h.config, ?_⟩
  have hwarns := h.warns.trans (Engine.warns_of_journal_eq hjournal)
  rw [List.append_nil] at hwarns
  rwa [hissues]

/-- A load is in lockstep with itself as long as its log agrees with its report. -/
theorem lockstep_logged (e : Engine) : Lockstep id fun l l' => l = l' ∧ Logged e l where
  injective := Function.injective_id
  grammar h := by rw [h.1]
  topics h := by rw [h.1, Topic.map_relabel_id]
  emit event hlevel l l' h := ⟨by rw [h.1], h.2.emit hlevel⟩
  record issue _ l l' h := ⟨by rw [h.1], h.2.record issue⟩
  putTopic name t l l' h := ⟨by rw [h.1, t.relabel_id], h.2.congr rfl rfl rfl⟩
  changeBotvars change l l' h := ⟨by rw [h.1], h.2.congr rfl rfl rfl⟩
  countScript h := ⟨by rw [h.1], h.2.congr rfl rfl rfl⟩
  countRules count l l' h := ⟨by rw [h.1], h.2.congr rfl rfl rfl⟩

/-- At its beginning a load has no problems, and has written of none. -/
theorem logged_start (source : Source) (e : Engine) : Logged e (start source e) := by
  refine ⟨Engine.config_emit _ _, ?_⟩
  have hemit := Engine.warns_emit_debug (.loadingFrom source.description) rfl e
  have hreset : (e.emit (.loadingFrom source.description)).Warns (start source e).engine [] :=
    Engine.warns_of_journal_eq rfl
  exact hemit.trans hreset

/-- When its source is done, a load has written what its report calls for. -/
theorem logged_done (source : Source) (e : Engine) : Logged e (done source e) := by
  have hdone := (lockstep_logged e).done (fun issue _ _ h => ⟨by rw [h.1], h.2.record issue⟩)
    ⟨rfl, logged_start source e⟩
  exact hdone.2

end Loading

namespace Engine

/-- A load writes the warnings and errors that its report calls for, unless they are silenced. -/
theorem warns_load (source : Source) (e : Engine) :
    e.Warns (e.load source).2
      (LoadIssue.loudEvents e.config.errorLog (e.load source).1.issues) :=
  (Loading.logged_done source e).warns

end Engine

end Rejoinder
