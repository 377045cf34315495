import Rejoinder.Proofs.Engine.Programs

/-!
# Engines in lockstep

Two engines that differ only in what a reply does not look at give the same reply, and differ in the
same way afterwards. What may differ is a relation between engines; that it is right is said by
`Lockstep`: every step of a reply keeps the two engines related, and what a reply reads is the same
in related engines. From that, programs do the same in related engines (`Lockstep.run`), and so do
replies (`Lockstep.replyVerbose`).

The relation has to be kept only by what the handlers at hand can do, so the programs of the rules
may be restricted to some actions. A relation of an engine with itself says what a reply with such
handlers leaves alone.
-/

set_option autoImplicit false

namespace Rejoinder

/-- Whether an action changes a variable of the bot. -/
def Action.writesBot : Action → Bool
  | .setBot _ _ => true
  | .setBotValue _ _ => true
  | .deleteBot _ => true
  | .increment _ => true
  | _ => false

namespace Engine

/-- Two results are the same, and the engines behind them are related. -/
def InStep {α : Type} (R : Engine → Engine → Prop) (x x' : α × Engine) : Prop :=
  x.1 = x'.1 ∧ R x.2 x'.2

/-- The same result in related engines is in step. -/
theorem InStep.intro {α : Type} {R : Engine → Engine → Prop} {a : α} {e e' : Engine} (h : R e e') :
    InStep R (a, e) (a, e') := ⟨rfl, h⟩

/-- Results that are in step are the same, in related engines. -/
theorem InStep.cases {α : Type} {R : Engine → Engine → Prop} {x x' : α × Engine}
    (h : InStep R x x') : ∃ a e e', x = (a, e) ∧ x' = (a, e') ∧ R e e' := by
  obtain ⟨a, e⟩ := x
  obtain ⟨a', e'⟩ := x'
  obtain ⟨rfl, h⟩ := h
  exact ⟨a, e, e', rfl, rfl, h⟩

/-- Results that are in step stay so, if what is done with the same text is in step. -/
theorem InStep.followedBy {R : Engine → Engine → Prop} {made made' : Effect}
    {next next' : String → Engine → Effect} (hmade : InStep R made made')
    (hnext : ∀ text e e', R e e' → InStep R (next text e) (next' text e')) :
    InStep R (made.followedBy next) (made'.followedBy next') := by
  obtain ⟨result, e, e', rfl, rfl, he⟩ := hmade.cases
  cases result with
  | ok text => exact hnext text e e' he
  | error error => exact .intro he

/-- What a handler sees of an engine consists of variables. -/
theorem sight_congr {e e' : Engine} {turn : Turn}
    (huservars : e.uservars? turn.user = e'.uservars? turn.user)
    (hbotvars : e.botvars = e'.botvars) :
    e.sight turn = e'.sight turn := by
  rw [sight, sight, huservars, hbotvars]

/-- A relation between engines that a reply to this user keeps and cannot tell apart, if all actions
of the handlers have a property. The variables of the user may be different, as long as no action
with the property can see it. -/
structure Lockstep (p : Action → Prop) (user : String) (R : Engine → Engine → Prop) : Prop where
  emit : ∀ event {e e'}, R e e' → R (e.emit event) (e'.emit event)
  meet : ∀ {e e'}, R e e' → R (e.meet user) (e'.meet user)
  buildCache : ∀ {e e'}, R e e' → R e.buildCache e'.buildCache
  insertVar : ∀ key value {e e'}, R e e' →
    R (e.changeVars user fun vars => vars.insert key value)
      (e'.changeVars user fun vars => vars.insert key value)
  eraseVar : ∀ key {e e'}, R e e' →
    R (e.changeVars user fun vars => vars.erase key) (e'.changeVars user fun vars => vars.erase key)
  remember : ∀ previous {e e'}, R e e' →
    R (e.setUser user { e.user user with previous := previous })
      (e'.setUser user { e'.user user with previous := previous })
  changeBotvars : ∀ action, p action → action.writesBot = true → ∀ change {e e'}, R e e' →
    R (e.changeBotvars change) (e'.changeBotvars change)
  depthLimit : ∀ {e e'}, R e e' → e.config.depthLimit = e'.config.depthLimit
  substitutions : ∀ {e e'}, R e e' → e.config.substitutions = e'.config.substitutions
  topic : p .topic → ∀ {e e'}, R e e' →
    (e.uservars? user).map topicIn = (e'.uservars? user).map topicIn
  getUser : ∀ key fallback, p (.getUser key fallback) → ∀ {e e'}, R e e' →
    ((e.uservars? user).bind fun vars => vars.get? key) =
      (e'.uservars? user).bind fun vars => vars.get? key
  andThen : ∀ first next, p (.andThen first next) → ∀ {e e'}, R e e' → ∀ turn : Turn,
    turn.user = user → ∀ text, next (e.sight turn) text = next (e'.sight turn) text
  botvars : ∀ {e e'}, R e e' → e.botvars = e'.botvars
  previousOf : ∀ {e e'}, R e e' → e.previousOf user = e'.previousOf user
  candidates : ∀ {e e'}, R e e' → e.buildCache.candidates = e'.buildCache.candidates
  programs : ∀ {e e'}, R e e' → ∀ r ∈ e.candidates, Program.Every p r.handler.program

namespace Lockstep

variable {p : Action → Prop} {R : Engine → Engine → Prop}

section Programs

variable {nested nested' : String → Engine → String × Engine} {turn : Turn}

mutual

/-- An action does the same in related engines, if the replies that it asks for do. -/
theorem perform (hR : Lockstep p turn.user R)
    (hnested : ∀ message e e', R e e' → InStep R (nested message e) (nested' message e'))
    {e e' : Engine} (h : R e e') (action : Action) (hp : action.Every p) :
    InStep R (Rejoinder.perform nested turn e action)
      (Rejoinder.perform nested' turn e' action) := by
  cases action with
  | group number =>
    simp only [Rejoinder.perform]
    split <;> exact ⟨rfl, h⟩
  | reply message =>
    rw [perform_reply, perform_reply]
    refine (run hR hnested h "" message hp.2).followedBy fun text e₁ e₁' h₁ => ?_
    obtain ⟨htext, h₂⟩ := hnested text e₁ e₁' h₁
    exact ⟨congrArg Except.ok htext, h₂⟩
  | topic =>
    simp only [Rejoinder.perform, hR.topic hp h]
    exact ⟨rfl, h⟩
  | setTopic name =>
    rw [perform_setTopic, perform_setTopic]
    refine (run hR hnested h "" name hp.2).followedBy fun name e₁ e₁' h₁ => ?_
    exact .intro (hR.insertVar topicKey (.string name) h₁)
  | getUser key fallback =>
    simp only [Rejoinder.perform, hR.getUser key fallback hp h]
    exact ⟨rfl, h⟩
  | getBot key fallback =>
    simp only [Rejoinder.perform, hR.botvars h]
    exact ⟨rfl, h⟩
  | setUser key text =>
    rw [perform_setUser, perform_setUser]
    refine (run hR hnested h "" text hp.2).followedBy fun text e₁ e₁' h₁ => ?_
    exact .intro (hR.insertVar key (.string text) h₁)
  | setBot key text =>
    rw [perform_setBot, perform_setBot]
    refine (run hR hnested h "" text hp.2).followedBy fun text e₁ e₁' h₁ => ?_
    exact .intro (hR.changeBotvars _ hp.1 rfl _ h₁)
  | setUserValue key value =>
    simp only [Rejoinder.perform]
    exact .intro (hR.insertVar _ _ h)
  | setBotValue key value =>
    simp only [Rejoinder.perform]
    exact .intro (hR.changeBotvars _ hp rfl _ h)
  | deleteUser key =>
    simp only [Rejoinder.perform]
    exact .intro (hR.eraseVar _ h)
  | deleteBot key =>
    simp only [Rejoinder.perform]
    exact .intro (hR.changeBotvars _ hp rfl _ h)
  | increment key =>
    simp only [Rejoinder.perform]
    exact .intro (hR.changeBotvars _ hp rfl _ h)
  | andThen first next =>
    rw [perform_andThen, perform_andThen]
    refine (run hR hnested h "" first hp.2.1).followedBy fun text e₁ e₁' h₁ => ?_
    -- The engines may look different to the handler, but it goes on in the same way.
    rw [hR.andThen first next hp.1 h₁ turn rfl text]
    exact run hR hnested h₁ "" (next (e₁'.sight turn) text) (hp.2.2 _ _)
  | _ => exact ⟨rfl, h⟩
termination_by structural action

/-- A program does the same in related engines. -/
theorem run (hR : Lockstep p turn.user R)
    (hnested : ∀ message e e', R e e' → InStep R (nested message e) (nested' message e'))
    {e e' : Engine} (h : R e e') (made : String) (program : List Action)
    (hp : Program.Every p program) :
    InStep R (Rejoinder.run nested turn e made program)
      (Rejoinder.run nested' turn e' made program) := by
  cases program with
  | nil => exact ⟨rfl, h⟩
  | cons action rest =>
    rw [run_cons, run_cons]
    refine (perform hR hnested h action hp.1).followedBy fun text e₁ e₁' h₁ => ?_
    exact run hR hnested h₁ (made ++ text) rest hp.2
termination_by structural program

end

end Programs

section Replies

variable {user : String} {e e' : Engine}

/-- Going through the rules keeps two engines related. -/
theorem scanned (hR : Lockstep p user R) (message : String) (h : R e e') :
    R (e.scanned user message) (e'.scanned user message) := by
  rw [Engine.scanned, Engine.scanned, hR.substitutions h]
  exact hR.emit _ (hR.buildCache (hR.meet (hR.emit _ h)))

/-- In related engines, a message selects the same rule. -/
theorem selection (hR : Lockstep p user R) (message : String) (h : R e e') :
    e.selection user message = e'.selection user message := by
  -- What is scanned has been compiled, up to an event that the rules do not depend on.
  have hcandidates : ∀ e : Engine, (e.scanned user message).candidates =
      ((e.emit (.asked user message)).meet user).buildCache.candidates := by
    intro e
    rw [Engine.scanned, Engine.candidates, Engine.candidates, topic?, topic?, topics_emit]
  rw [Engine.selection, Engine.selection, hR.substitutions h, hR.previousOf (hR.scanned message h),
    hcandidates, hcandidates, hR.candidates (hR.meet (hR.emit _ h))]

/-- Remembering a reply keeps two engines related. -/
theorem conclude (hR : Lockstep p user R) (depth : Nat) (reply : String) (h : R e e') :
    R (e.conclude user depth reply) (e'.conclude user depth reply) := by
  rw [Engine.conclude, Engine.conclude, hR.substitutions h]
  split
  · exact hR.emit _ h
  · split
    · exact hR.remember _ h
    · exact h

/-- Replies at a depth are the same in related engines, and leave related engines behind. -/
theorem replyAt (hR : Lockstep p user R) (remaining depth : Nat) (message : String) (h : R e e') :
    InStep R (replyAt user remaining depth message e)
      (replyAt user remaining depth message e') := by
  induction remaining generalizing depth message e e' with
  | zero =>
    rw [replyAt_zero, replyAt_zero, hR.depthLimit h]
    exact ⟨rfl, hR.emit _ (hR.emit _ h)⟩
  | succ remaining ih =>
    have hscanned := hR.scanned message h
    have hsame := hR.selection message h
    cases hselection : e.selection user message with
    | none =>
      have hcount : (e.scanned user message).candidates = (e'.scanned user message).candidates := by
        have hcandidates := hR.candidates hscanned
        rwa [buildCache_of_built (cacheBuilt_scanned _ _ _),
          buildCache_of_built (cacheBuilt_scanned _ _ _)] at hcandidates
      rw [replyAt_of_selection_eq_none hselection,
        replyAt_of_selection_eq_none (hsame ▸ hselection), hcount, hR.substitutions h]
      exact ⟨rfl, hR.conclude depth "" hscanned⟩
    | some selected =>
      obtain ⟨place, rule, groups⟩ := selected
      -- Requests are replied to one level deeper, where the induction hypothesis knows the replies.
      have hnested : ∀ message e e', R e e' →
          InStep R (nestedReply user remaining (depth + 1) message e)
            (nestedReply user remaining (depth + 1) message e') := by
        intro message e e' h
        obtain ⟨hdetails, hafter⟩ := ih (depth + 1) message h
        exact ⟨congrArg ReplyDetails.reply hdetails, hafter⟩
      have hhandled : InStep R (e.handled user remaining depth message rule groups)
          (e'.handled user remaining depth message rule groups) :=
        run hR hnested (hR.emit _ hscanned) "" _
          (hR.programs hscanned rule (mem_candidates_of_selection_eq_some hselection))
      obtain ⟨result, e₁, e₁', hrun, hrun', h₁⟩ := hhandled.cases
      rw [replyAt_of_selection_eq_some hselection,
        replyAt_of_selection_eq_some (hsame ▸ hselection), hrun, hrun', hR.substitutions h]
      cases result with
      | error error => exact ⟨rfl, hR.conclude depth "" (hR.emit _ h₁)⟩
      | ok reply => exact ⟨rfl, hR.conclude depth reply h₁⟩

/-- A reply is the same in related engines, and leaves related engines behind. -/
theorem replyVerbose (hR : Lockstep p user R) (message : String) (h : R e e') :
    InStep R (e.replyVerbose user message) (e'.replyVerbose user message) := by
  rw [Engine.replyVerbose, Engine.replyVerbose, hR.depthLimit h]
  exact hR.replyAt _ _ _ h

/-- Whoever asks for a reply gets the same answer in related engines. -/
theorem perform_reply (hR : Lockstep p user R) (message : String) (h : R e e') :
    InStep R (e.perform (.reply user message)) (e'.perform (.reply user message)) := by
  obtain ⟨hdetails, hafter⟩ := hR.replyVerbose message h
  exact ⟨congrArg (fun d : ReplyDetails => Answer.reply d.reply) hdetails, hafter⟩

/-- A message gets the same reply in related engines. -/
theorem perform_replyVerbose (hR : Lockstep p user R) (message : String) (h : R e e') :
    InStep R (e.perform (.replyVerbose user message))
      (e'.perform (.replyVerbose user message)) := by
  obtain ⟨hdetails, hafter⟩ := hR.replyVerbose message h
  exact ⟨congrArg Answer.details hdetails, hafter⟩

end Replies

end Lockstep

end Engine

end Rejoinder
