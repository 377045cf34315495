import Rejoinder.Engine.Reply

/-!
# What the steps of a reply leave alone

Writing an event changes the journal only, meeting a user changes the users only, and building
changes the topics only, the journal apart. The lemmas here say so field by field, so that nothing
that builds on them has to open these steps. The text of the last reply (`previousOf`) is one more
field: meeting a user and changing variables leave it alone for every user.
-/

set_option autoImplicit false

namespace Rejoinder

namespace Engine

/-! ## Writing events -/

section Emit

variable (event : Event) (e : Engine)

/-- Writing an event changes nothing but the journal. -/
theorem exists_journal_emit : ∃ journal, e.emit event = { e with journal := journal } := by
  unfold emit
  split
  · exact ⟨_, rfl⟩
  · exact ⟨e.journal, rfl⟩

/-- Writing an event keeps the settings. -/
@[simp] theorem config_emit : (e.emit event).config = e.config := by
  obtain ⟨journal, h⟩ := exists_journal_emit event e
  rw [h]

/-- Writing an event keeps the grammar. -/
@[simp] theorem grammar_emit : (e.emit event).grammar = e.grammar := by
  obtain ⟨journal, h⟩ := exists_journal_emit event e
  rw [h]

/-- Writing an event keeps the topics. -/
@[simp] theorem topics_emit : (e.emit event).topics = e.topics := by
  obtain ⟨journal, h⟩ := exists_journal_emit event e
  rw [h]

/-- Writing an event keeps the bot variables. -/
@[simp] theorem botvars_emit : (e.emit event).botvars = e.botvars := by
  obtain ⟨journal, h⟩ := exists_journal_emit event e
  rw [h]

/-- Writing an event keeps the users. -/
@[simp] theorem users_emit : (e.emit event).users = e.users := by
  obtain ⟨journal, h⟩ := exists_journal_emit event e
  rw [h]

/-- Writing an event builds nothing and makes no build out of date. -/
@[simp] theorem cacheBuilt_emit : (e.emit event).cacheBuilt = e.cacheBuilt := by
  obtain ⟨journal, h⟩ := exists_journal_emit event e
  rw [h]

end Emit

/-- Writing events changes nothing but the journal. -/
theorem exists_journal_foldl_emit (events : List Event) (e : Engine) :
    ∃ journal, events.foldl (fun e event => e.emit event) e = { e with journal := journal } := by
  induction events generalizing e with
  | nil => exact ⟨e.journal, rfl⟩
  | cons event events ih =>
    obtain ⟨journal, h⟩ := exists_journal_emit event e
    obtain ⟨journal', h'⟩ := ih (e.emit event)
    refine ⟨journal', ?_⟩
    rw [List.foldl_cons, h', h]

/-! ## Building -/

section Build

variable (e : Engine)

/-- Rules that have been built are not built again. -/
theorem buildCache_of_built {e : Engine} (h : e.cacheBuilt = true) : e.buildCache = e := by
  rw [buildCache, if_pos h]

/-- Building changes the topics and notes the rules that do not compile. -/
theorem exists_journal_buildCache {e : Engine} (h : e.cacheBuilt = false) :
    ∃ journal, e.buildCache =
      { e with
        topics := e.topics.map (Topic.build e.grammar), cacheBuilt := true,
        journal := journal } := by
  rw [buildCache, if_neg (by simp [h])]
  exact exists_journal_foldl_emit _ _

/-- After building, the rules have been built. -/
@[simp] theorem cacheBuilt_buildCache : e.buildCache.cacheBuilt = true := by
  cases h : e.cacheBuilt
  · obtain ⟨journal, hbuild⟩ := exists_journal_buildCache h
    rw [hbuild]
  · rw [buildCache_of_built h, h]

/-- Building keeps the settings. -/
@[simp] theorem config_buildCache : e.buildCache.config = e.config := by
  cases h : e.cacheBuilt
  · obtain ⟨journal, hbuild⟩ := exists_journal_buildCache h
    rw [hbuild]
  · rw [buildCache_of_built h]

/-- Building keeps the grammar. -/
@[simp] theorem grammar_buildCache : e.buildCache.grammar = e.grammar := by
  cases h : e.cacheBuilt
  · obtain ⟨journal, hbuild⟩ := exists_journal_buildCache h
    rw [hbuild]
  · rw [buildCache_of_built h]

/-- Building keeps the bot variables. -/
@[simp] theorem botvars_buildCache : e.buildCache.botvars = e.botvars := by
  cases h : e.cacheBuilt
  · obtain ⟨journal, hbuild⟩ := exists_journal_buildCache h
    rw [hbuild]
  · rw [buildCache_of_built h]

/-- Building keeps the users. -/
@[simp] theorem users_buildCache : e.buildCache.users = e.users := by
  cases h : e.cacheBuilt
  · obtain ⟨journal, hbuild⟩ := exists_journal_buildCache h
    rw [hbuild]
  · rw [buildCache_of_built h]

end Build

/-! ## Meeting users -/

section Meet

variable (name : String) (e : Engine)

/-- What is known about a user who has been met: the topic may have changed. -/
theorem exists_user_meet : ∃ u : User, u.previous = (e.user name).previous ∧
    ∃ journal, e.meet name = { e.setUser name u with journal := journal } := by
  by_cases h : e.topics.contains (e.user name).topic = true
  · exact ⟨e.user name, rfl, e.journal, if_pos h⟩
  · obtain ⟨journal, hemit⟩ := exists_journal_emit (.topicGone name (e.user name).topic)
      (e.setUser name ((e.user name).setTopic defaultTopic))
    exact ⟨(e.user name).setTopic defaultTopic, rfl, journal, (if_neg h).trans hemit⟩

/-- Meeting a user keeps the settings. -/
@[simp] theorem config_meet : (e.meet name).config = e.config := by
  obtain ⟨u, _, journal, h⟩ := exists_user_meet name e
  rw [h]
  rfl

/-- Meeting a user keeps the grammar. -/
@[simp] theorem grammar_meet : (e.meet name).grammar = e.grammar := by
  obtain ⟨u, _, journal, h⟩ := exists_user_meet name e
  rw [h]
  rfl

/-- Meeting a user keeps the topics. -/
@[simp] theorem topics_meet : (e.meet name).topics = e.topics := by
  obtain ⟨u, _, journal, h⟩ := exists_user_meet name e
  rw [h]
  rfl

/-- Meeting a user builds nothing and makes no build out of date. -/
@[simp] theorem cacheBuilt_meet : (e.meet name).cacheBuilt = e.cacheBuilt := by
  obtain ⟨u, _, journal, h⟩ := exists_user_meet name e
  rw [h]
  rfl

end Meet

/-! ## The last reply to a user -/

section Previous

variable (name other : String) (e : Engine)

/-- What was said to a user before is in the record of the user. -/
theorem previous_user : (e.user name).previous = e.previousOf name := by
  unfold user previousOf
  cases e.users.get? name <;> rfl

/-- Putting down a record of a user changes what was said before to that user only. -/
theorem previousOf_setUser (u : User) :
    (e.setUser name u).previousOf other =
      if other = name then u.previous else e.previousOf other := by
  rw [previousOf, setUser, Table.get?_insert]
  split <;> rfl

/-- What was said before is in the records of the users. -/
theorem previousOf_congr {e e' : Engine} (h : e.users = e'.users) :
    e.previousOf other = e'.previousOf other := by
  rw [previousOf, previousOf, h]

/-- A user keeps the last reply if nothing else is changed about the user. -/
theorem previousOf_setUser_of_eq {u : User} (h : u.previous = (e.user name).previous) :
    (e.setUser name u).previousOf other = e.previousOf other := by
  rw [previousOf_setUser, h, previous_user]
  split
  · rename_i hother
    rw [hother]
  · rfl

/-- Writing an event keeps what was said before. -/
@[simp] theorem previousOf_emit (event : Event) :
    (e.emit event).previousOf other = e.previousOf other :=
  previousOf_congr other (users_emit event e)

/-- Building keeps what was said before. -/
@[simp] theorem previousOf_buildCache : e.buildCache.previousOf other = e.previousOf other :=
  previousOf_congr other (users_buildCache e)

/-- Meeting a user keeps what was said before, to that user and to the others. -/
@[simp] theorem previousOf_meet : (e.meet name).previousOf other = e.previousOf other := by
  obtain ⟨u, hu, journal, h⟩ := exists_user_meet name e
  rw [h]
  exact previousOf_setUser_of_eq name other e hu

/-- A change of the variables of a user keeps what was said before. -/
@[simp] theorem previousOf_changeVars (change : Vars → Vars) :
    (e.changeVars name change).previousOf other = e.previousOf other :=
  previousOf_setUser_of_eq name other e rfl

/-- A change of the topic of a user keeps what was said before. -/
@[simp] theorem previousOf_setTopic (topic : String) :
    (e.setTopic name topic).previousOf other = e.previousOf other :=
  previousOf_setUser_of_eq name other e rfl

/-- A change of the bot variables keeps what was said before. -/
@[simp] theorem previousOf_changeBotvars (change : Vars → Vars) :
    (e.changeBotvars change).previousOf other = e.previousOf other := rfl

end Previous

end Engine

end Rejoinder
