import Rejoinder.Proofs.Engine.Answer
import Rejoinder.Proofs.Table

/-!
# Engines that are prepared for a message

Before the rules are gone through for a message, its user is met and the rules are compiled. The
engine is `prepared` by that, and preparing it once more changes nothing but the journal
(`clearEvents_prepared_prepared`). So as long as no handler has changed anything (`Unchanged`),
every message selects the rule that it selects before the reply begins (`Unchanged.selection`). A
handler that changes nothing at all but returns the reply to a further message is said to relay it
(`Relays`).
-/

set_option autoImplicit false

namespace Rejoinder

namespace Engine

/-! ## Engines without their journals -/

section ClearEvents

variable {e e' : Engine}

/-- Two engines are the same but for their events if one is the other with another journal. -/
theorem clearEvents_eq_iff :
    e.clearEvents = e'.clearEvents ↔ ∃ journal, e = { e' with journal := journal } := by
  constructor
  · intro h
    cases e
    cases e'
    simp only [clearEvents, mk.injEq, and_true] at h
    obtain ⟨rfl, rfl, rfl, rfl, rfl, rfl⟩ := h
    exact ⟨_, rfl⟩
  · rintro ⟨journal, rfl⟩
    rfl

/-- Writing an event changes nothing if events do not count. -/
@[simp] theorem clearEvents_emit (event : Event) (e : Engine) :
    (e.emit event).clearEvents = e.clearEvents := by
  obtain ⟨journal, h⟩ := exists_journal_emit event e
  rw [h]
  rfl

end ClearEvents

/-! ## Preparing an engine -/

/-- The engine that is prepared for a message of a user: the user has been met, and the rules are
compiled. -/
def prepared (user : String) (e : Engine) : Engine := (e.meet user).buildCache

/-- What is known about a user after the user has been met. -/
def met (name : String) (e : Engine) : User :=
  if e.topics.contains (e.user name).topic then e.user name
  else (e.user name).setTopic defaultTopic

/-- The topics with their rules compiled. -/
def builtTopics (e : Engine) : Table String Topic :=
  if e.cacheBuilt then e.topics else e.topics.map (Topic.build e.grammar)

section Prepared

variable (user : String) (e : Engine)

/-- Meeting a user changes the record of the user and the journal. -/
theorem exists_journal_meet :
    ∃ journal, e.meet user = { e.setUser user (e.met user) with journal := journal } := by
  unfold meet met
  dsimp only
  split
  · exact ⟨e.journal, rfl⟩
  · exact exists_journal_emit _ _

/-- Preparing an engine changes the topics, the record of the user and the journal. -/
theorem exists_journal_prepared :
    ∃ journal, e.prepared user =
      { e with
        topics := e.builtTopics, users := e.users.insert user (e.met user), cacheBuilt := true,
        journal := journal } := by
  obtain ⟨journal, hmeet⟩ := exists_journal_meet user e
  cases hbuilt : (e.meet user).cacheBuilt with
  | false =>
    obtain ⟨journal', hbuild⟩ := exists_journal_buildCache hbuilt
    refine ⟨journal', ?_⟩
    rw [cacheBuilt_meet] at hbuilt
    rw [prepared, hbuild, hmeet, builtTopics, hbuilt]
    rfl
  | true =>
    refine ⟨journal, ?_⟩
    rw [prepared, buildCache_of_built hbuilt, hmeet]
    rw [cacheBuilt_meet] at hbuilt
    rw [builtTopics, if_pos hbuilt, setUser, hbuilt]

/-- What preparing an engine changes if events do not count. -/
theorem clearEvents_prepared : (e.prepared user).clearEvents =
    { e with
      topics := e.builtTopics, users := e.users.insert user (e.met user), cacheBuilt := true,
      journal := [] } := by
  obtain ⟨journal, h⟩ := exists_journal_prepared user e
  rw [h]
  rfl

/-- Engines that are the same but for their events are so when they have been prepared. -/
theorem clearEvents_prepared_congr {e e' : Engine} (h : e.clearEvents = e'.clearEvents) :
    (e.prepared user).clearEvents = (e'.prepared user).clearEvents := by
  obtain ⟨journal, rfl⟩ := clearEvents_eq_iff.mp h
  rw [clearEvents_prepared, clearEvents_prepared]
  rfl

/-- The topics after a build are the built topics. -/
theorem topics_buildCache : e.buildCache.topics = e.builtTopics := by
  cases hbuilt : e.cacheBuilt with
  | false =>
    obtain ⟨journal, hbuild⟩ := exists_journal_buildCache hbuilt
    rw [hbuild, builtTopics, hbuilt]
    rfl
  | true => rw [buildCache_of_built hbuilt, builtTopics, if_pos hbuilt]

/-- Building makes no topic and drops none. -/
theorem contains_builtTopics (name : String) :
    e.builtTopics.contains name = e.topics.contains name := by
  rw [builtTopics]
  split
  · rfl
  · exact Table.contains_map _ _ _

/-- Of two topics that are set one after the other, the second one counts. -/
theorem setTopic_setTopic (u : User) (topic topic' : String) :
    (u.setTopic topic).setTopic topic' = u.setTopic topic' := by
  simp only [User.setTopic, Table.insert_insert]

/-- Meeting a user again finds the user in order. -/
theorem met_prepared : (e.prepared user).met user = e.met user := by
  obtain ⟨journal, h⟩ := exists_journal_prepared user e
  have huser : (e.prepared user).user user = e.met user := by
    rw [h, Engine.user, Table.get?_insert, if_pos rfl]
    rfl
  have htopics : (e.prepared user).topics = e.builtTopics := by rw [h]
  rw [met, huser, htopics, contains_builtTopics]
  split
  · rfl
  · rename_i hgone
    rw [met]
    split
    · rename_i hthere
      rw [met, if_pos hthere] at hgone
      contradiction
    · exact setTopic_setTopic _ _ _

/-- Preparing an engine again changes nothing but its journal. -/
theorem clearEvents_prepared_prepared :
    ((e.prepared user).prepared user).clearEvents = (e.prepared user).clearEvents := by
  rw [clearEvents_prepared, met_prepared]
  obtain ⟨journal, h⟩ := exists_journal_prepared user e
  rw [h]
  simp only [builtTopics, if_true, Table.insert_insert, clearEvents]

end Prepared

/-! ## Before anything is changed -/

/-- An engine inside a reply, before any handler has changed anything: the one that the reply began
with, or that one as it is prepared. -/
def Unchanged (user : String) (e e' : Engine) : Prop :=
  e'.clearEvents = e.clearEvents ∨ e'.clearEvents = (e.prepared user).clearEvents

/-- The engine in which the handler of a rule begins. -/
def entered (user message : String) (rule : Rule) (e : Engine) : Engine :=
  (e.scanned user message).emit (.matched rule.name)

/-- An engine in which the rules are gone through is prepared, if events do not count. -/
theorem clearEvents_scanned (user message : String) (e : Engine) :
    (e.scanned user message).clearEvents = (e.prepared user).clearEvents := by
  rw [scanned, clearEvents_emit]
  exact clearEvents_prepared_congr user (clearEvents_emit _ _)

namespace Unchanged

variable {user : String} {e e' : Engine} (h : Unchanged user e e')

include h

/-- An engine that has changed in nothing that counts is prepared when its rules are gone through.
-/
theorem clearEvents_scanned (message : String) :
    (e'.scanned user message).clearEvents = (e.prepared user).clearEvents := by
  rw [Engine.clearEvents_scanned]
  rcases h with h | h
  · exact clearEvents_prepared_congr user h
  · rw [clearEvents_prepared_congr user h, clearEvents_prepared_prepared]

/-- An engine that has changed in nothing that counts is prepared when a handler begins. -/
theorem clearEvents_entered (message : String) (rule : Rule) :
    (e'.entered user message rule).clearEvents = (e.prepared user).clearEvents := by
  rw [entered, clearEvents_emit, h.clearEvents_scanned]

/-- Nothing is changed by going through the rules. -/
theorem entered (message : String) (rule : Rule) :
    Unchanged user e (e'.entered user message rule) := .inr (h.clearEvents_entered message rule)

/-- An engine that has changed in nothing that counts has the same settings. -/
theorem config : e'.config = e.config := by
  rcases h with h | h <;> have hconfig := congrArg Engine.config h
  · exact hconfig
  · rw [clearEvents_prepared] at hconfig
    exact hconfig

/-- As long as nothing is changed, a message selects the same rule. -/
theorem selection (message : String) : e'.selection user message = e.selection user message := by
  have hscanned : (e'.scanned user message).clearEvents = (e.scanned user message).clearEvents := by
    rw [h.clearEvents_scanned, Engine.clearEvents_scanned]
  obtain ⟨journal, hjournal⟩ := clearEvents_eq_iff.mp hscanned
  rw [Engine.selection, Engine.selection, h.config, hjournal]
  rfl

end Unchanged

end Engine

/-! ## Handlers that relay a message -/

/-- A program that does nothing but return the reply to a message. -/
def Relays (turn : Turn) (e : Engine) (program : List Action) (message : String) : Prop :=
  ∀ nested : String → Engine → String × Engine,
    run nested turn e "" program = (.ok (nested message e).1, (nested message e).2) ∧
      programCalls nested turn e program = [(message, e)]

/-- To ask for the reply to a text is to relay the text, if making it changes nothing. -/
theorem relays_reply {turn : Turn} {e : Engine} {program : List Action} {message : String}
    (hrun : ∀ nested, run nested turn e "" program = (.ok message, e))
    (hcalls : ∀ nested, programCalls nested turn e program = []) :
    Relays turn e [.reply program] message := by
  intro nested
  constructor
  · simp only [run, perform, hrun, String.empty_append]
  · simp only [programCalls, actionCalls, perform, hrun, hcalls, List.nil_append, List.append_nil]

end Rejoinder
