import Rejoinder.Engine.Operation
import Rejoinder.Proofs.Engine.Lockstep
import Rejoinder.Proofs.Engine.Prepared

/-!
# Replies come from the default topic

The topic of a user is kept in a reserved variable. It decides nothing: rules are selected among
those of the default topic, whatever topic the user is in and whatever other topics there are. Two
engines are compared that have the same rules in the default topic and remember the same, but for
the reserved variable (`SameDefault`). Replies put users in other topics, move them back where their
topics do not exist, and build the rules of all topics; none of this is noticed by a handler that
does not ask for the topic (`Action.IgnoresTopic`). So both engines make the same replies
(`lockstep_sameDefault`).
-/

set_option autoImplicit false

namespace Rejoinder

/-- What a handler goes on with is the same for sights that differ in the topic of the user only. -/
def Sight.SameButTopic (s s' : Sight) : Prop :=
  s.turn = s'.turn ∧ s.botvars = s'.botvars ∧
    ∀ key, key ≠ topicKey → s.uservars.get? key = s'.uservars.get? key

/-- An action does not ask for the topic of the user, neither as such nor as a variable. -/
def Action.IgnoresTopic : Action → Prop
  | .topic => False
  | .getUser key _ => key ≠ topicKey
  | .andThen _ next => ∀ s s' : Sight, s.SameButTopic s' → ∀ text, next s text = next s' text
  | _ => True

namespace Engine

/-- The value of a variable of a user. -/
def userVar? (e : Engine) (name key : String) : Option Json :=
  (e.uservars? name).bind fun vars => vars.get? key

section UserVar

variable {name other key : String} {e : Engine}

/-- A user who has just been met has no variable but the topic. -/
theorem get?_vars_user (hkey : key ≠ topicKey) :
    (e.user name).vars.get? key = e.userVar? name key := by
  rw [userVar?, uservars?, user]
  cases e.users.get? name with
  | some u => rfl
  | none =>
    have hnew : User.new.vars.get? key =
        if key = topicKey then some (.string defaultTopic) else none := Table.get?_insert
    rw [Option.getD_none, hnew, if_neg hkey]
    rfl

/-- Putting down a record of a user changes the variables of that user only. -/
theorem userVar?_setUser (u : User) :
    (e.setUser name u).userVar? other key =
      if other = name then u.vars.get? key else e.userVar? other key := by
  rw [userVar?, uservars?, setUser, Table.get?_insert]
  split <;> rfl

/-- The variables of users are in their records. -/
theorem userVar?_congr {e e' : Engine} (h : e.users = e'.users) :
    e.userVar? name key = e'.userVar? name key := by
  rw [userVar?, userVar?, uservars?, uservars?, h]

/-- Meeting a user changes the topic at most. -/
theorem get?_vars_met (hkey : key ≠ topicKey) :
    (e.met name).vars.get? key = e.userVar? name key := by
  rw [← get?_vars_user hkey, met]
  split
  · rfl
  · rw [User.setTopic, Table.get?_insert, if_neg hkey]

/-- What was said to a user before is kept when the user is met. -/
theorem previous_met : (e.met name).previous = e.previousOf name := by
  rw [← previous_user, met]
  split <;> rfl

end UserVar

/-- Two engines remember the same of all users, but for the topics of the users. -/
structure SameMemory (e e' : Engine) : Prop where
  botvars : e.botvars = e'.botvars
  previousOf : ∀ name, e.previousOf name = e'.previousOf name
  userVar : ∀ name key, key ≠ topicKey → e.userVar? name key = e'.userVar? name key

/-- The rules of the default topic in the order of registration, without what building adds to them,
and the alternates of the topic. -/
def defaultRules (e : Engine) : Option (List Rule × Alternates) :=
  (e.topics.get? defaultTopic).map fun t => (t.unbuilt.rules, t.alternates)

/-- Two engines with the same settings have the same rules in the default topic, with handlers that
do not ask for the topic of a user, and remember the same otherwise. -/
structure SameDefault (grammar : Grammar) (e e' : Engine) : Prop extends SameMemory e e' where
  coherent : Coherent grammar e
  coherent' : Coherent grammar e'
  config : e.config = e'.config
  rules : e.defaultRules = e'.defaultRules
  programs : ∀ t, e.topics.get? defaultTopic = some t →
    ∀ r ∈ t.rules, Program.Every Action.IgnoresTopic r.handler.program

variable {grammar : Grammar} {e e' e₁ e₁' : Engine}

/-! ## Steps of both engines -/

namespace SameMemory

/-- What the engines write does not change what they remember. -/
theorem congr (h : SameMemory e e') (h₁ : e₁.clearEvents = e.clearEvents)
    (h₁' : e₁'.clearEvents = e'.clearEvents) : SameMemory e₁ e₁' := by
  obtain ⟨journal, rfl⟩ := clearEvents_eq_iff.mp h₁
  obtain ⟨journal', rfl⟩ := clearEvents_eq_iff.mp h₁'
  exact ⟨h.botvars, h.previousOf, h.userVar⟩

/-- Records of a user that differ in the topic only leave the engines with the same memory. -/
theorem setUser (h : SameMemory e e') (name : String) {u u' : User}
    (hprevious : u.previous = u'.previous)
    (hvars : ∀ key, key ≠ topicKey → u.vars.get? key = u'.vars.get? key) :
    SameMemory (e.setUser name u) (e'.setUser name u') := by
  refine ⟨h.botvars, ?_, ?_⟩
  · intro other
    rw [previousOf_setUser, previousOf_setUser, hprevious, h.previousOf]
  · intro other key hkey
    rw [userVar?_setUser, userVar?_setUser, hvars key hkey, h.userVar other key hkey]

/-- The same memory has the same values for all variables but the topic. -/
theorem get?_vars (h : SameMemory e e') (name : String) {key : String} (hkey : key ≠ topicKey) :
    (e.user name).vars.get? key = (e'.user name).vars.get? key := by
  rw [get?_vars_user hkey, get?_vars_user hkey, h.userVar name key hkey]

/-- The same memory has the same previous reply. -/
theorem previous (h : SameMemory e e') (name : String) :
    (e.user name).previous = (e'.user name).previous := by
  rw [previous_user, previous_user, h.previousOf]

/-- A handler that ignores the topic sees the same. -/
theorem sight (h : SameMemory e e') (turn : Turn) :
    (e.sight turn).SameButTopic (e'.sight turn) := by
  have hvars : ∀ (e : Engine) key, (e.sight turn).uservars.get? key = e.userVar? turn.user key := by
    intro e key
    unfold Engine.sight userVar?
    cases e.uservars? turn.user <;> rfl
  refine ⟨rfl, h.botvars, ?_⟩
  intro key hkey
  rw [hvars, hvars, h.userVar turn.user key hkey]

/-- Moving a user to another topic changes nothing that is compared. -/
theorem setTopic_right (h : SameMemory e e') (name topic : String) :
    SameMemory e (e'.setTopic name topic) := by
  refine ⟨h.botvars, ?_, ?_⟩
  · intro other
    rw [previousOf_setTopic, h.previousOf]
  · intro other key hkey
    rw [h.userVar other key hkey, setTopic, userVar?_setUser, User.setTopic, Table.get?_insert,
      if_neg hkey, get?_vars_user hkey]
    split
    · rename_i hother
      rw [hother]
    · rfl

end SameMemory

/-- The alternates of another topic do not matter to the default topic. -/
theorem defaultRules_addAlternate {topic : String} (htopic : topic ≠ defaultTopic)
    (name value : String) (e : Engine) :
    (e.addAlternate topic name value).defaultRules = e.defaultRules := by
  rw [defaultRules, defaultRules, addAlternate, Table.get?_insert, if_neg htopic.symm]

/-- Building does not change the rules of the default topic, but for what it adds to them. -/
theorem Coherent.defaultRules_buildCache (h : Coherent grammar e) :
    e.buildCache.defaultRules = e.defaultRules := by
  rw [defaultRules, defaultRules, h.get?_buildCache, Option.map_map]
  congr 1
  funext t
  exact congrArg (fun t' : Topic => (t'.rules, t.alternates)) (Topic.unbuilt_build grammar t)

namespace SameDefault

/-- Where the rules stay as they are, only the settings and the memory have to be compared. -/
theorem of_sameRules (h : SameDefault grammar e e') (h₁ : SameRules e₁ e) (h₁' : SameRules e₁' e')
    (hconfig : e₁.config = e₁'.config) (hmemory : SameMemory e₁ e₁') :
    SameDefault grammar e₁ e₁' := by
  obtain ⟨hgrammar, htopics, hbuilt⟩ := h₁
  obtain ⟨hgrammar', htopics', hbuilt'⟩ := h₁'
  refine ⟨hmemory, h.coherent.congr hgrammar htopics hbuilt,
    h.coherent'.congr hgrammar' htopics' hbuilt', hconfig, ?_, ?_⟩
  · rw [defaultRules, defaultRules, htopics, htopics']
    exact h.rules
  · rw [htopics]
    exact h.programs

/-- What the engines write does not change the rules of the default topic, nor what is remembered.
-/
theorem congr (h : SameDefault grammar e e') (h₁ : e₁.clearEvents = e.clearEvents)
    (h₁' : e₁'.clearEvents = e'.clearEvents) : SameDefault grammar e₁ e₁' := by
  have hmemory := h.toSameMemory.congr h₁ h₁'
  obtain ⟨journal, rfl⟩ := clearEvents_eq_iff.mp h₁
  obtain ⟨journal', rfl⟩ := clearEvents_eq_iff.mp h₁'
  exact h.of_sameRules ⟨rfl, rfl, rfl⟩ ⟨rfl, rfl, rfl⟩ h.config hmemory

/-- Records of a user that differ in the topic only leave the engines alike. -/
theorem setUser (h : SameDefault grammar e e') (name : String) {u u' : User}
    (hprevious : u.previous = u'.previous)
    (hvars : ∀ key, key ≠ topicKey → u.vars.get? key = u'.vars.get? key) :
    SameDefault grammar (e.setUser name u) (e'.setUser name u') :=
  h.of_sameRules ⟨rfl, rfl, rfl⟩ ⟨rfl, rfl, rfl⟩ h.config
    (h.toSameMemory.setUser name hprevious hvars)

/-- The user may be moved to the default topic in one engine only. -/
theorem meet (h : SameDefault grammar e e') (name : String) :
    SameDefault grammar (e.meet name) (e'.meet name) := by
  obtain ⟨journal, hmeet⟩ := exists_journal_meet name e
  obtain ⟨journal', hmeet'⟩ := exists_journal_meet name e'
  have hmet : SameDefault grammar (e.setUser name (e.met name))
      (e'.setUser name (e'.met name)) := by
    apply h.setUser
    · rw [previous_met, previous_met, h.previousOf]
    · intro key hkey
      rw [get?_vars_met hkey, get?_vars_met hkey, h.userVar name key hkey]
  exact hmet.congr (by rw [hmeet]; rfl) (by rw [hmeet']; rfl)

/-- Setting a variable of a user leaves the engines alike. -/
theorem insertVar (h : SameDefault grammar e e') (name key : String) (value : Json) :
    SameDefault grammar (e.changeVars name fun vars => vars.insert key value)
      (e'.changeVars name fun vars => vars.insert key value) := by
  apply h.setUser
  · exact h.previous name
  · intro other hother
    dsimp only
    rw [Table.get?_insert, Table.get?_insert, h.get?_vars name hother]

/-- Dropping a variable of a user leaves the engines alike. -/
theorem eraseVar (h : SameDefault grammar e e') (name key : String) :
    SameDefault grammar (e.changeVars name fun vars => vars.erase key)
      (e'.changeVars name fun vars => vars.erase key) := by
  apply h.setUser
  · exact h.previous name
  · intro other hother
    dsimp only
    rw [Table.get?_erase, Table.get?_erase, h.get?_vars name hother]

/-- The same change of the bot variables leaves the engines alike. -/
theorem changeBotvars (h : SameDefault grammar e e') (change : Vars → Vars) :
    SameDefault grammar (e.changeBotvars change) (e'.changeBotvars change) :=
  h.of_sameRules ⟨rfl, rfl, rfl⟩ ⟨rfl, rfl, rfl⟩ h.config
    ⟨congrArg change h.botvars, h.previousOf, h.userVar⟩

/-- The rules of all topics are built, all but those of the default topic without consequence. -/
theorem buildCache (h : SameDefault grammar e e') :
    SameDefault grammar e.buildCache e'.buildCache := by
  refine ⟨⟨?_, ?_, ?_⟩, h.coherent.buildCache, h.coherent'.buildCache, ?_, ?_, ?_⟩
  · rw [botvars_buildCache, botvars_buildCache, h.botvars]
  · intro name
    rw [previousOf_buildCache, previousOf_buildCache, h.previousOf]
  · intro name key hkey
    rw [userVar?_congr (users_buildCache e), userVar?_congr (users_buildCache e'),
      h.userVar name key hkey]
  · rw [config_buildCache, config_buildCache, h.config]
  · rw [h.coherent.defaultRules_buildCache, h.coherent'.defaultRules_buildCache, h.rules]
  · -- A rule keeps its handler when it is compiled.
    intro t ht r hr
    rw [h.coherent.get?_buildCache, Option.map_eq_some_iff] at ht
    obtain ⟨t, ht, rfl⟩ := ht
    obtain ⟨r', hr', rfl⟩ := List.mem_map.mp hr
    exact h.programs t ht r' hr'

/-- Engines with the same default topic try the same rules, in the same order. -/
theorem candidates (h : SameDefault grammar e e') :
    e.buildCache.candidates = e'.buildCache.candidates := by
  obtain ⟨t, ht⟩ := h.coherent.hasDefault
  obtain ⟨t', ht'⟩ := h.coherent'.hasDefault
  have hrules := h.rules
  rw [defaultRules, defaultRules, ht, ht'] at hrules
  obtain ⟨hrules, halternates⟩ := Prod.mk.inj (Option.some.inj hrules)
  rw [Engine.candidates, Engine.candidates, topic?, topic?, h.coherent.get?_buildCache,
    h.coherent'.get?_buildCache, ht, ht']
  exact Topic.ranked_build_congr hrules halternates

end SameDefault

/-! ## Replies -/

/-- A reply does not tell the two engines apart, whatever the topic of its user is. -/
theorem lockstep_sameDefault (grammar : Grammar) (user : String) :
    Lockstep Action.IgnoresTopic user (SameDefault grammar) where
  emit event _ _ h := h.congr (clearEvents_emit event _) (clearEvents_emit event _)
  meet h := h.meet user
  buildCache h := h.buildCache
  insertVar key value _ _ h := h.insertVar user key value
  eraseVar key _ _ h := h.eraseVar user key
  remember _ _ _ h := h.setUser user rfl fun _ hkey => h.get?_vars user hkey
  changeBotvars _ _ _ change _ _ h := h.changeBotvars change
  depthLimit h := congrArg Config.depthLimit h.config
  substitutions h := congrArg Config.substitutions h.config
  topic := nofun
  getUser key _ hkey _ _ h := h.userVar user key hkey
  andThen _ _ hnext _ _ h turn _ text := hnext _ _ (h.sight turn) text
  botvars h := h.botvars
  previousOf h := h.previousOf user
  candidates h := h.candidates
  programs {e _} h r hr := by
    obtain ⟨t, ht⟩ := h.coherent.hasDefault
    rw [Engine.candidates, topic?, ht] at hr
    obtain ⟨place, _, hr⟩ := List.mem_filterMap.mp hr
    exact h.programs t ht r (List.mem_of_getElem? hr)

end Engine

/-- Whether an operation asks for a reply. -/
def Operation.asks : Operation → Bool
  | .reply _ _ => true
  | .replyVerbose _ _ => true
  | _ => false

namespace Engine

variable {config config' : Config} {grammar : Grammar} {e e' : Engine}

/-- A reply or a question does the same in engines with the same default topic. -/
theorem SameDefault.perform (h : SameDefault grammar e e') {o : Operation} (ho : o.asks = true) :
    InStep (SameDefault grammar) (e.perform o) (e'.perform o) := by
  cases o with
  | reply user message => exact (lockstep_sameDefault grammar user).perform_reply message h
  | replyVerbose user message =>
    exact (lockstep_sameDefault grammar user).perform_replyVerbose message h
  | _ => contradiction

/-- Replies and questions have the same answers in engines with the same default topic, however many
there are. -/
theorem SameDefault.performAll (h : SameDefault grammar e e') {operations : List Operation}
    (hasks : ∀ o ∈ operations, o.asks = true) :
    (e.performAll operations).1 = (e'.performAll operations).1 ∧
      SameDefault grammar (e.performAll operations).2 (e'.performAll operations).2 := by
  induction operations generalizing e e' with
  | nil => exact ⟨rfl, h⟩
  | cons o rest ih =>
    obtain ⟨hanswer, hstep⟩ := h.perform (hasks o List.mem_cons_self)
    obtain ⟨hanswers, hafter⟩ := ih hstep fun o' ho' => hasks o' (List.mem_cons_of_mem o ho')
    exact ⟨congrArg₂ List.cons hanswer hanswers, hafter⟩

/-- Replies depend on the default topic only. Take two engines that can be reached, with the same
settings, the same rules and alternates in the default topic, and the same memory but for the topics
of the users; they may have any other topics. If no handler of the default topic asks for the topic
of the user, all replies are the same and come about in the same way, and the memory is the same
afterwards. -/
theorem Reachable.replies_from_default (h : Reachable config grammar e)
    (h' : Reachable config' grammar e') (hconfig : e.config = e'.config)
    (hmemory : SameMemory e e') (hrules : e.defaultRules = e'.defaultRules)
    (hprograms : ∀ t, e.topics.get? defaultTopic = some t →
      ∀ r ∈ t.rules, Program.Every Action.IgnoresTopic r.handler.program)
    {operations : List Operation} (hasks : ∀ o ∈ operations, o.asks = true) :
    (e.performAll operations).1 = (e'.performAll operations).1 ∧
      SameMemory (e.performAll operations).2 (e'.performAll operations).2 := by
  have hstart : SameDefault grammar e e' :=
    ⟨hmemory, h.coherent, h'.coherent, hconfig, hrules, hprograms⟩
  obtain ⟨hanswers, hafter⟩ := hstart.performAll hasks
  exact ⟨hanswers, hafter.toSameMemory⟩

/-- A new topic, and a user who is in it. -/
theorem replies_from_default_greetings :
    let e := ((withGrammar .default .bundled).performAll [.load .greetings]).2
    let e' := (e.performAll [.addAlternate "weather" "sky" "(grey)", .setTopic "ann" "weather"]).2
    let operations := [.replyVerbose "ann" "hello you", .reply "ann" "bye"]
    e'.topics.keys = ["all", "weather"] ∧ e'.topicOf? "ann" = some "weather" ∧
      (e.performAll operations).1 = (e'.performAll operations).1 := by
  intro e e' operations
  have he : Reachable .default .bundled e := Reachable.start.performAll _
  have hprograms : HasPrograms (Program.Every Action.IgnoresTopic) e := by
    apply hasPrograms_load
    simp [Source.HasPrograms, Source.greetings, Program.Every, Action.Every, Action.IgnoresTopic]
  have hadded : SameMemory e (e.addAlternate "weather" "sky" "(grey)") :=
    ⟨rfl, fun _ => rfl, fun _ _ _ => rfl⟩
  have hmemory : SameMemory e e' := hadded.setTopic_right "ann" "weather"
  have hrules : e'.defaultRules = e.defaultRules :=
    defaultRules_addAlternate (by decide) "sky" "(grey)" e
  have hasks : ∀ o ∈ operations, o.asks = true := by simp [operations, Operation.asks]
  refine ⟨by decide +kernel, by decide +kernel, ?_⟩
  exact (he.replies_from_default (he.performAll _) rfl hmemory hrules.symm
    (hprograms defaultTopic) hasks).1

end Engine

end Rejoinder
