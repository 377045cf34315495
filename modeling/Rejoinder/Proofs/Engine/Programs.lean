import Rejoinder.Proofs.Engine.Loading
import Rejoinder.Proofs.Engine.Reachable
import Rejoinder.Proofs.Engine.Selection

/-!
# The programs of an engine's rules

What the handlers of an engine can do is a property of the programs of its rules (`HasPrograms`),
and mostly one of every action in them (`Program.Every`). The rules change by a load only, and a
load takes the programs from the declarations of its source (`hasPrograms_load`). So if the sources
of all loads declare handlers of some kind, all handlers in an engine are of that kind, also inside
replies (`invariant_hasPrograms`, `HasPrograms.perform`).
-/

set_option autoImplicit false

namespace Rejoinder

/-! ## Every action of a program -/

mutual

/-- An action and all that can come up while it is performed have a property. -/
def Action.Every (p : Action → Prop) : Action → Prop
  | .reply message => p (.reply message) ∧ Program.Every p message
  | .setTopic name => p (.setTopic name) ∧ Program.Every p name
  | .setUser key text => p (.setUser key text) ∧ Program.Every p text
  | .setBot key text => p (.setBot key text) ∧ Program.Every p text
  | .andThen first next =>
    p (.andThen first next) ∧ Program.Every p first ∧
      ∀ sight text, Program.Every p (next sight text)
  | action => p action
termination_by structural action => action

/-- All actions that can come up while a program is run have a property. -/
def Program.Every (p : Action → Prop) : List Action → Prop
  | [] => True
  | action :: rest => action.Every p ∧ Program.Every p rest
termination_by structural program => program

end

mutual

/-- What all actions have, every action of a program has. -/
theorem Action.every_of_forall {p : Action → Prop} (h : ∀ action, p action) (action : Action) :
    action.Every p := by
  cases action with
  | reply message => exact ⟨h _, Program.every_of_forall h message⟩
  | setTopic name => exact ⟨h _, Program.every_of_forall h name⟩
  | setUser key text => exact ⟨h _, Program.every_of_forall h text⟩
  | setBot key text => exact ⟨h _, Program.every_of_forall h text⟩
  | andThen first next =>
    exact ⟨h _, Program.every_of_forall h first, fun sight text =>
      Program.every_of_forall h (next sight text)⟩
  | _ => exact h _
termination_by structural action

/-- A property of all actions is one of all programs. -/
theorem Program.every_of_forall {p : Action → Prop} (h : ∀ action, p action)
    (program : List Action) : Program.Every p program := by
  cases program with
  | nil => exact trivial
  | cons action rest => exact ⟨action.every_of_forall h, Program.every_of_forall h rest⟩
termination_by structural program

end

/-! ## The handlers of a source -/

/-- The programs of all rules that a source declares have a property. -/
def Source.HasPrograms (q : List Action → Prop) (source : Source) : Prop :=
  ∀ script, .ok script ∈ source.scripts → ∀ spec, .rule spec ∈ script.declarations →
    q spec.handler.program

/-- A rule that is kept has the handler that its declaration gives. -/
theorem handler_eq_of_verdict_eq_kept {g : Grammar} {before : List Verdict} {encounter : Encounter}
    {topic : String} {rule : Rule} (h : encounter.verdict g before = .kept topic rule) :
    ∃ script spec, encounter = .declared script (.rule spec) ∧ rule.handler = spec.handler := by
  cases encounter with
  | missing error => simp [Encounter.verdict] at h
  | declared script declaration =>
    cases declaration with
    | alternate name value => simp [Encounter.verdict] at h
    | substitution word replacement => simp [Encounter.verdict] at h
    | rule spec =>
      refine ⟨script, spec, rfl, ?_⟩
      simp only [Encounter.verdict, RuleSpec.verdict] at h
      split at h
      · contradiction
      · split at h
        · obtain ⟨_, rfl⟩ := Verdict.kept.inj h
          rfl
        · split at h <;> contradiction

/-- A rule that is kept has the handler of a declaration. -/
theorem handler_of_mem_keptIn {g : Grammar} {topic : String} {before : List Verdict}
    {encounters : List Encounter} {rule : Rule}
    (h : rule ∈ Verdict.keptIn topic (Encounter.verdicts g before encounters)) :
    rule ∈ Verdict.keptIn topic before ∨
      ∃ script spec, .declared script (.rule spec) ∈ encounters ∧ rule.handler = spec.handler := by
  induction encounters generalizing before with
  | nil => exact .inl h
  | cons encounter rest ih =>
    -- The verdict on the first encounter is among those that come before the rest.
    rcases ih h with hrule | ⟨script, spec, hmem, hhandler⟩
    · rw [Verdict.keptIn, List.filterMap_append, List.mem_append] at hrule
      rcases hrule with hrule | hrule
      · exact .inl hrule
      · obtain ⟨verdict, hverdict, hkept⟩ := List.mem_filterMap.mp hrule
        rw [List.mem_singleton] at hverdict
        subst hverdict
        cases hcase : encounter.verdict g before with
        | kept name rule' =>
          rw [hcase, Verdict.rule?] at hkept
          split at hkept
          · obtain rfl := Option.some.inj hkept
            obtain ⟨script, spec, rfl, hhandler⟩ := handler_eq_of_verdict_eq_kept hcase
            exact .inr ⟨script, spec, List.mem_cons_self, hhandler⟩
          · contradiction
        | repeated => simp [hcase, Verdict.rule?] at hkept
        | problem issue => simp [hcase, Verdict.rule?] at hkept
    · exact .inr ⟨script, spec, List.mem_cons_of_mem _ hmem, hhandler⟩

/-- A declaration that a source is met with is one of its scripts' declarations. -/
theorem Source.mem_encounters {source : Source} {script : Script} {declaration : Declaration}
    (h : .declared script declaration ∈ source.encounters) :
    .ok script ∈ source.scripts ∧ declaration ∈ script.declarations := by
  obtain ⟨entry, hentry, hencounter⟩ := List.mem_flatMap.mp h
  cases entry with
  | error error => simp [Encounter.ofEntry] at hencounter
  | ok script' =>
    obtain ⟨declaration', hdeclaration, heq⟩ := List.mem_map.mp hencounter
    obtain ⟨rfl, rfl⟩ := Encounter.declared.inj heq
    exact ⟨hentry, hdeclaration⟩

namespace Engine

/-! ## The programs of an engine -/

/-- The programs of all rules have a property. -/
def HasPrograms (q : List Action → Prop) (e : Engine) : Prop :=
  ∀ name t, e.topics.get? name = some t → ∀ r ∈ t.rules, q r.handler.program

variable {q : List Action → Prop} {e e' : Engine}

/-- Engines with the same topics have the same programs. -/
theorem HasPrograms.congr (h : HasPrograms q e) (htopics : e'.topics = e.topics) :
    HasPrograms q e' := by
  unfold HasPrograms
  rw [htopics]
  exact h

/-- Building changes no program. -/
theorem HasPrograms.buildCache (h : HasPrograms q e) : HasPrograms q e.buildCache := by
  cases hbuilt : e.cacheBuilt with
  | true =>
    rw [buildCache_of_built hbuilt]
    exact h
  | false =>
    obtain ⟨journal, hbuild⟩ := exists_journal_buildCache hbuilt
    intro name t ht r hr
    rw [hbuild, Table.get?_map, Option.map_eq_some_iff] at ht
    obtain ⟨t, ht, rfl⟩ := ht
    obtain ⟨r', hr', rfl⟩ := List.mem_map.mp hr
    exact h name t ht r' hr'

/-- The rules among which replies are selected have such programs too. -/
theorem HasPrograms.candidates (h : HasPrograms q e) : ∀ r ∈ e.candidates, q r.handler.program := by
  intro r hr
  rw [Engine.candidates, topic?] at hr
  cases ht : e.topics.get? defaultTopic with
  | none => simp [ht] at hr
  | some t =>
    rw [ht] at hr
    obtain ⟨place, _, hr⟩ := List.mem_filterMap.mp hr
    exact h defaultTopic t ht r (List.mem_of_getElem? hr)

/-- A new alternate changes no program. -/
theorem HasPrograms.addAlternate (h : HasPrograms q e) (topic name value : String) :
    HasPrograms q (e.addAlternate topic name value) := by
  intro name' t ht r hr
  rw [Engine.addAlternate, Table.get?_insert] at ht
  split at ht
  · obtain rfl := Option.some.inj ht
    cases ht' : e.topics.get? topic with
    | none => simp [ht', Topic.addAlternate, Topic.new] at hr
    | some t' =>
      rw [ht'] at hr
      exact h topic t' ht' r hr
  · exact h name' t ht r hr

/-- After a load, all programs come from the source. -/
theorem hasPrograms_load {source : Source} (hsource : source.HasPrograms q) (e : Engine) :
    HasPrograms q (e.load source).2 := by
  have hstart := Loading.follows_start source e
  obtain ⟨htopics, _⟩ := (hstart.loadEntries source.scripts).finish
  intro name t ht r hr
  have hkept := htopics.rules name
  rw [Engine.load_eq_done, Loading.done] at ht
  rw [ht] at hkept
  rw [Option.map_some, Option.getD_some] at hkept
  rw [hkept] at hr
  rcases handler_of_mem_keptIn hr with hr | ⟨script, spec, hmem, hhandler⟩
  · simp [Verdict.keptIn] at hr
  · obtain ⟨hscript, hspec⟩ := Source.mem_encounters hmem
    rw [hhandler]
    exact hsource script hscript spec hspec

/-- No step of a reply changes a program. -/
theorem invariant_hasPrograms (q : List Action → Prop) : Invariant (HasPrograms q) where
  emit event e h := h.congr (topics_emit event e)
  meet user e h := h.congr (topics_meet user e)
  buildCache _ h := h.buildCache
  changeVars _ _ _ h := h.congr rfl
  setTopic _ _ _ h := h.congr rfl
  changeBotvars _ _ h := h.congr rfl

/-- The rule that is selected is one of those that are gone through. -/
theorem mem_candidates_of_selection_eq_some {user message : String} {place : Nat} {rule : Rule}
    {groups : Groups} (hselection : e.selection user message = some (place, rule, groups)) :
    rule ∈ (e.scanned user message).candidates := by
  obtain ⟨k, _, hrule, _⟩ := exists_of_firstMatch_eq_some hselection
  exact List.mem_of_getElem? hrule

/-- The rule that a message selects has such a program. -/
theorem HasPrograms.of_selection_eq_some (h : HasPrograms q e) {user message : String} {place : Nat}
    {rule : Rule} {groups : Groups}
    (hselection : e.selection user message = some (place, rule, groups)) :
    q rule.handler.program := by
  have hscanned : HasPrograms q (e.scanned user message) :=
    (invariant_hasPrograms q).scanned message h
  exact hscanned.candidates rule (mem_candidates_of_selection_eq_some hselection)

/-- A reply changes no program. -/
theorem HasPrograms.replyVerbose (h : HasPrograms q e) (user message : String) :
    HasPrograms q (e.replyVerbose user message).2 :=
  (invariant_hasPrograms q).replyAt (fun _ _ he => he.congr rfl) _ _ _ h

/-- No operation but a load brings new programs. -/
theorem HasPrograms.perform (h : HasPrograms q e) (o : Operation)
    (hload : ∀ source, o = .load source → source.HasPrograms q) :
    HasPrograms q (e.perform o).2 := by
  cases o with
  | load source => exact hasPrograms_load (hload source rfl) e
  | reply user message => exact h.replyVerbose user message
  | replyVerbose user message => exact h.replyVerbose user message
  | buildCache => exact h.buildCache
  | ruleTable => exact h.buildCache
  | addAlternate topic name value => exact h.addAlternate topic name value
  | _ => exact h.congr rfl

/-- A run leads to programs with a property if all that it loads have it. -/
theorem HasPrograms.performAll (h : HasPrograms q e) (operations : List Operation)
    (hload : ∀ source, .load source ∈ operations → source.HasPrograms q) :
    HasPrograms q (e.performAll operations).2 := by
  induction operations generalizing e with
  | nil => exact h
  | cons o rest ih =>
    refine ih (h.perform o ?_) fun source hsource => hload source (List.mem_cons_of_mem _ hsource)
    rintro source rfl
    exact hload source List.mem_cons_self

/-- A new engine has no programs at all. -/
theorem hasPrograms_withGrammar (config : Config) (grammar : Grammar) :
    HasPrograms q (withGrammar config grammar) := by
  refine HasPrograms.congr ?_ (topics_emit _ _)
  intro name t ht r hr
  have hget : t.rules = [] := by
    have hrules := TopicsFollow.start.rules name
    rw [ht] at hrules
    exact hrules
  rw [hget] at hr
  contradiction

end Engine

end Rejoinder
