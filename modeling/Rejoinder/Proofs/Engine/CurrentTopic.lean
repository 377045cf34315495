import Mathlib
import Rejoinder.Proofs.Engine.Depth
import Rejoinder.Proofs.Engine.Restart
import Rejoinder.Proofs.Engine.Warnings

/-!
# The topic in which a user is

Users may be put into topics that do not exist: handlers and callers write what they like into the
variables of a user, and a load may take away the topic that a user is in. So a user is set up anew
for every message, at whatever depth it is asked (`received`), and `SetUp` says what that does to
the user's record, to the records of the other users and to the log. It leaves the user in an
existing topic since the default topic is always there (`Reachable.topicsNamed`), and so the handler
that makes the reply begins with the user in an existing topic (`Reachable.user_in_topic`).
-/

set_option autoImplicit false

namespace Rejoinder

namespace Engine

/-! ## The topics of an engine -/

/-- The default topic is there, and every topic is kept under its own name. -/
structure TopicsNamed (e : Engine) : Prop where
  hasDefault : e.topics.contains defaultTopic = true
  name_eq : ∀ name t, e.topics.get? name = some t → t.name = name

section TopicsNamed

variable {e e' : Engine}

/-- Topics under their own names are so in any engine with the same topics. -/
theorem TopicsNamed.congr (h : TopicsNamed e) (htopics : e'.topics = e.topics) :
    TopicsNamed e' := by
  constructor
  · rw [htopics]
    exact h.hasDefault
  · rw [htopics]
    exact h.name_eq

/-- Fresh topics are kept under their own names. -/
theorem FreshTopics.topicsNamed (h : FreshTopics e) : TopicsNamed e :=
  ⟨h.hasDefault, fun name t ht => (h.fresh name t ht).name_eq⟩

/-- Building changes rules, but no names. -/
theorem TopicsNamed.buildCache (h : TopicsNamed e) : TopicsNamed e.buildCache := by
  constructor
  · rw [topics_buildCache, contains_builtTopics]
    exact h.hasDefault
  · intro name t ht
    rw [topics_buildCache, builtTopics] at ht
    split at ht
    · exact h.name_eq name t ht
    · rw [Table.get?_map] at ht
      obtain ⟨t', ht', rfl⟩ := Option.map_eq_some_iff.mp ht
      exact h.name_eq name t' ht'

/-- A topic that is missing is made under its name when an alternate is added to it. -/
theorem TopicsNamed.addAlternate (h : TopicsNamed e) (topic name value : String) :
    TopicsNamed (e.addAlternate topic name value) := by
  constructor
  · exact Table.contains_insert.mpr (.inr h.hasDefault)
  · intro other t ht
    rw [Engine.addAlternate, Table.get?_insert] at ht
    split at ht
    · rename_i hother
      obtain rfl := Option.some.inj ht
      rw [hother]
      cases hthere : e.topics.get? topic with
      | none => rfl
      | some t => exact h.name_eq topic t hthere
    · exact h.name_eq other t ht

/-- Every operation keeps the topics under their own names. -/
theorem lasting_topicsNamed : Lasting TopicsNamed where
  emit event e h := h.congr (topics_emit event e)
  meet user e h := h.congr (topics_meet user e)
  buildCache _ h := h.buildCache
  changeVars _ _ _ h := h.congr rfl
  setTopic _ _ _ h := h.congr rfl
  changeBotvars _ _ h := h.congr rfl
  setUser _ _ _ h := h.congr rfl
  load source e _ := (fresh_load source e).topicsNamed
  addAlternate topic name value _ h := h.addAlternate topic name value
  addSubstitution _ _ _ h := h.congr rfl
  resetUser _ _ h := h.congr rfl
  resetUsers _ h := h.congr rfl

/-- Engines that can be reached have the default topic, and all topics under their names. -/
theorem Reachable.topicsNamed {config : Config} {grammar : Grammar}
    (h : Reachable config grammar e) : TopicsNamed e := by
  refine lasting_topicsNamed.of_reachable ?_ h
  exact (freshTopics_resetTopics (withGrammar config grammar)).topicsNamed.congr (topics_emit _ _)

end TopicsNamed

/-! ## Setting up a user -/

/-- The engine after a message of a user has been received and the user has been set up for it. -/
def received (user message : String) (e : Engine) : Engine :=
  (e.emit (.asked user message)).meet user

/-- What setting up a user does. -/
structure SetUp (user : String) (earlier later : Engine) : Prop where
  /-- The user is in a topic that exists. -/
  inTopic : ∃ topic, later.topicOf? user = some topic ∧ later.topics.contains topic = true
  /-- A user whose topic exists, or whose variables name no topic, is left alone. -/
  kept : ∀ u, earlier.users.get? user = some u →
    ((u.vars.get? topicKey).bind Json.text? = none ∨ earlier.topics.contains u.topic = true) →
    later.users.get? user = some u ∧ earlier.Warns later []
  /-- A user whose topic does not exist is moved to the default topic, with one warning. -/
  moved : ∀ u topic, earlier.users.get? user = some u →
    u.vars.get? topicKey = some (.string topic) → earlier.topics.contains topic = false →
    later.users.get? user = some { u with vars := u.vars.insert topicKey (.string defaultTopic) } ∧
      earlier.Warns later (if earlier.config.errorLog then [.topicGone user topic] else [])
  /-- A user who is not known gets the variable that holds the topic, and no others. -/
  created : earlier.users.get? user = none →
    later.users.get? user = some ⟨Table.empty.insert topicKey (.string defaultTopic), none⟩ ∧
      earlier.Warns later []
  /-- The other users are left alone. -/
  others : ∀ other, other ≠ user → later.users.get? other = earlier.users.get? other

section SetUp

variable {e : Engine} {user : String}

/-- A user whose variables name no topic is in the default topic. -/
theorem topic_eq_defaultTopic {u : User} (h : (u.vars.get? topicKey).bind Json.text? = none) :
    u.topic = defaultTopic := by
  rw [User.topic, topicIn, h]
  rfl

/-- A user whose topic is set is in that topic. -/
theorem topic_setTopic (u : User) (topic : String) : (u.setTopic topic).topic = topic := by
  rw [User.topic, User.setTopic, topicIn, Table.get?_insert, if_pos rfl]
  rfl

/-- What is known about a user is the record of the user. -/
theorem user_eq_of_get? {u : User} (h : e.users.get? user = some u) : e.user user = u := by
  rw [Engine.user, h]
  rfl

/-- A user without a record is like a new one. -/
theorem user_eq_new (h : e.users.get? user = none) : e.user user = User.new := by
  rw [Engine.user, h]
  rfl

/-- The record of a user who has been met, and no other one, may have changed. -/
theorem get?_users_meet (e : Engine) (user other : String) :
    (e.meet user).users.get? other =
      if other = user then some (e.met user) else e.users.get? other := by
  obtain ⟨journal, h⟩ := exists_journal_meet user e
  rw [h]
  exact Table.get?_insert

/-- A user whose topic exists is met as the user is, and nothing is written. -/
theorem meet_of_contains (h : e.topics.contains (e.user user).topic = true) :
    e.met user = e.user user ∧ e.Warns (e.meet user) [] := by
  refine ⟨if_pos h, warns_of_journal_eq ?_⟩
  rw [Engine.meet, if_pos h, setUser]

/-- A user whose topic does not exist is moved to the default topic, and that is written. -/
theorem meet_of_not_contains (h : e.topics.contains (e.user user).topic = false) :
    e.met user = (e.user user).setTopic defaultTopic ∧
      e.Warns (e.meet user)
        (if e.config.errorLog then [.topicGone user (e.user user).topic] else []) := by
  refine ⟨if_neg (by simp [h]), ?_⟩
  have hset : e.Warns (e.setUser user ((e.user user).setTopic defaultTopic)) [] :=
    warns_of_journal_eq rfl
  have hlevel : (Event.topicGone user (e.user user).topic).level ≠ .debug := by simp [Event.level]
  have hwarned := hset.trans (warns_emit_loud _ hlevel
    (e.setUser user ((e.user user).setTopic defaultTopic)))
  rw [Engine.meet, if_neg (by simp [h])]
  exact hwarned

/-- A user who has been met is in a topic that exists. -/
theorem contains_topic_met (hdefault : e.topics.contains defaultTopic = true) :
    e.topics.contains (e.met user).topic = true := by
  rw [met]
  split
  · assumption
  · rw [topic_setTopic]
    exact hdefault

/-- Meeting a user sets the user up, if the default topic is there. -/
theorem setUp_meet (hdefault : e.topics.contains defaultTopic = true) (user : String) :
    SetUp user e (e.meet user) := by
  have hself : (e.meet user).users.get? user = some (e.met user) := by
    rw [get?_users_meet, if_pos rfl]
  constructor
  case inTopic =>
    refine ⟨(e.met user).topic, ?_, ?_⟩
    · rw [topicOf?, hself]
      rfl
    · rw [topics_meet]
      exact contains_topic_met hdefault
  case kept =>
    intro u hu hkept
    have huser := user_eq_of_get? hu
    have hthere : e.topics.contains (e.user user).topic = true := by
      rw [huser]
      rcases hkept with hunnamed | hthere
      · rwa [topic_eq_defaultTopic hunnamed]
      · exact hthere
    obtain ⟨hmet, hwarns⟩ := meet_of_contains hthere
    exact ⟨by rw [hself, hmet, huser], hwarns⟩
  case moved =>
    intro u topic hu hnamed hgone
    have huser := user_eq_of_get? hu
    have htopic : (e.user user).topic = topic := by
      rw [huser, User.topic, topicIn, hnamed]
      rfl
    rw [← htopic] at hgone ⊢
    obtain ⟨hmet, hwarns⟩ := meet_of_not_contains hgone
    exact ⟨by rw [hself, hmet, huser]; rfl, hwarns⟩
  case created =>
    intro hnone
    have huser := user_eq_new hnone
    have hthere : e.topics.contains (e.user user).topic = true := by
      rw [huser]
      exact hdefault
    obtain ⟨hmet, hwarns⟩ := meet_of_contains hthere
    exact ⟨by rw [hself, hmet, huser]; rfl, hwarns⟩
  case others =>
    intro other hother
    rw [get?_users_meet, if_neg hother]

/-- What is done after a debug message may count from before the message. -/
theorem SetUp.of_emit {event : Event} {e' : Engine} (h : SetUp user (e.emit event) e')
    (hlevel : event.level = .debug) : SetUp user e e' := by
  obtain ⟨hinTopic, hkept, hmoved, hcreated, hothers⟩ := h
  simp only [users_emit, topics_emit, config_emit] at hkept hmoved hcreated hothers
  have hwarns : ∀ {events}, (e.emit event).Warns e' events → e.Warns e' events :=
    fun h => (warns_emit_debug event hlevel e).trans h
  constructor
  case inTopic => exact hinTopic
  case kept =>
    intro u hu hkeep
    exact (hkept u hu hkeep).imp_right hwarns
  case moved =>
    intro u topic hu hnamed hgone
    exact (hmoved u topic hu hnamed hgone).imp_right hwarns
  case created =>
    intro hnone
    exact (hcreated hnone).imp_right hwarns
  case others => exact hothers

/-- Receiving a message sets the user up, if the default topic is there. -/
theorem setUp_received (hdefault : e.topics.contains defaultTopic = true) (user message : String) :
    SetUp user e (e.received user message) := by
  rw [← topics_emit (.asked user message) e] at hdefault
  exact (setUp_meet hdefault user).of_emit rfl

end SetUp

/-! ## Handlers -/

section Handlers

variable {e : Engine} (user message : String) (rule : Rule)

/-- Going through the rules touches no user. -/
theorem users_scanned : (e.scanned user message).users = (e.received user message).users := by
  simp only [scanned, users_emit, users_buildCache, received]

/-- The handler of a rule begins with the users as they have been set up. -/
theorem users_entered : (e.entered user message rule).users = (e.received user message).users := by
  rw [entered, users_emit, users_scanned]

/-- Neither receiving a message nor beginning to answer it makes or drops a topic. -/
theorem contains_topics_entered (topic : String) :
    (e.entered user message rule).topics.contains topic =
      (e.received user message).topics.contains topic := by
  simp only [entered, scanned, topics_emit, topics_buildCache, contains_builtTopics, received]

variable {user message rule}

/-- A reply for which there is no rule touches no user but for setting up the one who asks. -/
theorem users_answer_of_selection_eq_none {depth : Nat} (hdepth : depth < e.config.depthLimit)
    (h : e.selection user message = none) :
    (e.answer user depth message).2.users = (e.received user message).users := by
  rw [answer_of_selection_eq_none hdepth h, ← users_scanned]
  exact users_emit _ _

/-- A user who has been set up is in a topic that exists when the handler of a rule begins. -/
theorem SetUp.exists_topicOf?_entered (h : SetUp user e (e.received user message)) (rule : Rule) :
    ∃ topic, (e.entered user message rule).topicOf? user = some topic ∧
      (e.entered user message rule).topics.contains topic = true := by
  obtain ⟨topic, hof, hthere⟩ := h.inTopic
  refine ⟨topic, ?_, ?_⟩
  · rw [topicOf?, users_entered]
    exact hof
  · rwa [contains_topics_entered]

end Handlers

/-- A user is in an existing topic whenever a handler begins. In every engine that can be reached,
the default topic is there and every topic is kept under its own name. A message of a user that is
not refused sets the user up before the rules are gone through. If no rule is selected, nothing else
is done to any user; and if one is, then its handler makes the reply and begins with the users as
they have been set up, in an engine that has the user's topic. -/
theorem Reachable.user_in_topic {config : Config} {grammar : Grammar} {e : Engine} {depth : Nat}
    (h : Reachable config grammar e) (hdepth : depth < e.config.depthLimit)
    (user message : String) :
    TopicsNamed e ∧ SetUp user e (e.received user message) ∧
      (e.selection user message = none →
        (e.answer user depth message).2.users = (e.received user message).users) ∧
      ∀ place rule groups, e.selection user message = some (place, rule, groups) →
        (∃ topic, (e.entered user message rule).topicOf? user = some topic ∧
          (e.entered user message rule).topics.contains topic = true) ∧
        (e.entered user message rule).users = (e.received user message).users ∧
        e.answer user depth message =
          settled user depth (String.ofList (normalize e.config.substitutions message)) place rule
            (run (answerText user (depth + 1)) ⟨user, depth, groups⟩
              (e.entered user message rule) "" rule.handler.program) := by
  have hnamed := h.topicsNamed
  have hsetUp := setUp_received hnamed.hasDefault user message
  refine ⟨hnamed, hsetUp, users_answer_of_selection_eq_none hdepth, ?_⟩
  intro place rule groups hselection
  refine ⟨hsetUp.exists_topicOf?_entered rule, users_entered user message rule, ?_⟩
  exact answer_of_selection_eq_some_settled hdepth hselection

/-- A user in a topic that nothing has made is moved to the default topic. -/
theorem user_in_topic_greetings :
    let e := ((withGrammar .default .bundled).performAll
      [.load .greetings, .setTopic "ann" "weather"]).2
    Reachable .default .bundled e ∧ 0 < e.config.depthLimit ∧ TopicsNamed e ∧
      e.topicOf? "ann" = some "weather" ∧
      (e.received "ann" "Hello you!").topicOf? "ann" = some defaultTopic ∧
      e.Warns (e.received "ann" "Hello you!") [.topicGone "ann" "weather"] := by
  intro e
  have he : Reachable .default .bundled e := Reachable.start.performAll _
  have hdepth : 0 < e.config.depthLimit := by decide +kernel
  have hgone : e.topics.contains "weather" = false := by decide +kernel
  have huser : e.users.get? "ann" =
      some ⟨Table.empty.insert topicKey (.string "weather"), none⟩ := by cbv
  have hwrites : e.config.errorLog = true := by decide +kernel
  obtain ⟨hnamed, hsetUp, -⟩ := he.user_in_topic hdepth "ann" "Hello you!"
  obtain ⟨hmoved, hwarns⟩ := hsetUp.moved _ "weather" huser rfl hgone
  rw [if_pos hwrites] at hwarns
  refine ⟨he, hdepth, hnamed, ?_, ?_, hwarns⟩
  · rw [topicOf?, huser]
    rfl
  · rw [topicOf?, hmoved]
    rfl

end Engine

end Rejoinder
