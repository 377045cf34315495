import Rejoinder.Proofs.Engine.Frame

/-!
# Replies that are asked for inside a reply

A handler may ask for further replies, and the handlers of those for still more. `callsAt` lists all
the replies that are asked for while one is made, the one itself included, each with its depth, its
message and the engine to which it is put. It follows `replyAt` and `run`, which give the results,
and `run_congr` says that it misses nothing: a program can only tell two replies apart by the calls
that are listed.

A property that every step of a reply keeps is an `Engine.Invariant`. Kept by the steps, it is kept
by every program (`Invariant.run`) and by every reply that is not an outermost one
(`Invariant.replyAt_nested`), and it holds wherever a reply is asked for (`Invariant.mem_callsAt`).
An outermost reply also remembers its text, so there this last step has to be looked at as well
(`Invariant.replyAt`).
-/

set_option autoImplicit false

namespace Rejoinder

/-! ## The parts of a reply -/

namespace Engine

/-- The engine in which the rules are gone through for a message: the user has been met, and the
rules are compiled. -/
def scanned (user message : String) (e : Engine) : Engine :=
  (((e.emit (.asked user message)).meet user).buildCache).emit
    (.normalized (String.ofList (normalize e.config.substitutions message)))

/-- The rule that matches a message first, with its place among the rules and its groups. -/
def selection (user message : String) (e : Engine) : Option (Nat × Rule × Groups) :=
  firstMatch (normalize e.config.substitutions message) ((e.scanned user message).previousOf user)
    (e.scanned user message).candidates

/-- The reply that handlers are given for the messages that they ask for. -/
def nestedReply (user : String) (remaining depth : Nat) (message : String) (e : Engine) :
    String × Engine :=
  ((replyAt user remaining depth message e).1.reply, (replyAt user remaining depth message e).2)

/-- What the handler of a rule does about a message that the rule has matched. -/
def handled (user : String) (remaining depth : Nat) (message : String) (rule : Rule)
    (groups : Groups) (e : Engine) : Effect :=
  run (nestedReply user remaining (depth + 1)) ⟨user, depth, groups⟩
    ((e.scanned user message).emit (.matched rule.name)) "" rule.handler.program

section Scanned

variable (user other message : String) (e : Engine)

/-- Going through the rules keeps the settings. -/
@[simp] theorem config_scanned : (e.scanned user message).config = e.config := by simp [scanned]

/-- The rules are built when they are gone through. -/
@[simp] theorem cacheBuilt_scanned : (e.scanned user message).cacheBuilt = true := by simp [scanned]

/-- Going through the rules keeps what was said before. -/
@[simp] theorem previousOf_scanned :
    (e.scanned user message).previousOf other = e.previousOf other := by simp [scanned]

end Scanned

section ReplyAt

variable {user message : String} {remaining depth : Nat} {e : Engine}

/-- At the depth limit a message is refused, which leaves two events and nothing else. -/
theorem replyAt_zero : replyAt user 0 depth message e =
    (⟨"", "", none, 0, depth, .depthExceeded⟩,
      (e.emit (.asked user message)).emit (.refused user message e.config.depthLimit)) := by
  rfl

/-- If no rule matches, all of them have been tried. -/
theorem replyAt_of_selection_eq_none (h : e.selection user message = none) :
    replyAt user (remaining + 1) depth message e =
      (⟨"", String.ofList (normalize e.config.substitutions message), none,
          (e.scanned user message).candidates.length, depth, .noMatch⟩,
        (e.scanned user message).conclude user depth "") := by
  simp only [selection, scanned] at h
  simp only [replyAt, config_buildCache, config_meet, config_emit, h, scanned]

/-- If a rule matches, its handler makes the reply. -/
theorem replyAt_of_selection_eq_some {place : Nat} {rule : Rule} {groups : Groups}
    (h : e.selection user message = some (place, rule, groups)) :
    replyAt user (remaining + 1) depth message e =
      match e.handled user remaining depth message rule groups with
      | (.ok reply, e') =>
        (⟨reply, String.ofList (normalize e.config.substitutions message), some rule.name, place,
            depth, .replied⟩,
          e'.conclude user depth reply)
      | (.error error, e') =>
        (⟨"", String.ofList (normalize e.config.substitutions message), some rule.name, place,
            depth, .handlerFailed⟩,
          (e'.emit (.handlerFailed rule.name error)).conclude user depth "") := by
  simp only [selection, scanned] at h
  simp only [replyAt, config_buildCache, config_meet, config_emit, h]
  rfl

end ReplyAt

end Engine

/-! ## One step after another

An action that needs a text runs the program for it first, and a program goes from action to action.
Either way, an error is the end, and a text is what the rest goes on with.
-/

/-- What is done with the text of a result. An error is passed on, with what took place before it.
-/
def Effect.followedBy (made : Effect) (next : String → Engine → Effect) : Effect :=
  match made with
  | (.ok text, e) => next text e
  | (.error error, e) => (.error error, e)

namespace Effect

variable {made : Effect} {next next' : String → Engine → Effect}

/-- What follows an effect matters only for the text that the effect has made. -/
theorem followedBy_congr (h : ∀ text e, made = (.ok text, e) → next text e = next' text e) :
    made.followedBy next = made.followedBy next' := by
  obtain ⟨result, e⟩ := made
  cases result with
  | ok text => exact h text e rfl
  | error error => rfl

/-- What holds of the engine behind a result holds behind all that follows, if each step keeps it.
-/
theorem followedBy_keeps {P : Engine → Prop} (hmade : P made.2)
    (hnext : ∀ text e, P e → P (next text e).2) : P (made.followedBy next).2 := by
  obtain ⟨result, e⟩ := made
  cases result with
  | ok text => exact hnext text e hmade
  | error error => exact hmade

end Effect

section Steps

variable (nested : String → Engine → String × Engine) (turn : Turn) (e : Engine)

/-- An action that asks for a reply makes its message first and then the reply. -/
theorem perform_reply (message : List Action) :
    perform nested turn e (.reply message) =
      (run nested turn e "" message).followedBy fun message e =>
        (.ok (nested message e).1, (nested message e).2) := by
  rw [perform]
  rfl

/-- An action that sets the topic makes its name first. -/
theorem perform_setTopic (name : List Action) :
    perform nested turn e (.setTopic name) =
      (run nested turn e "" name).followedBy fun name e => (.ok "", e.setTopic turn.user name) := by
  rw [perform]
  rfl

/-- An action that sets a variable of the user makes its text first. -/
theorem perform_setUser (key : String) (text : List Action) :
    perform nested turn e (.setUser key text) =
      (run nested turn e "" text).followedBy fun text e =>
        (.ok "", e.changeVars turn.user fun vars => vars.insert key (.string text)) := by
  rw [perform]
  rfl

/-- An action that sets a bot variable makes its text first. -/
theorem perform_setBot (key : String) (text : List Action) :
    perform nested turn e (.setBot key text) =
      (run nested turn e "" text).followedBy fun text e =>
        (.ok "", e.changeBotvars fun vars => vars.insert key (.string text)) := by
  rw [perform]
  rfl

/-- An action that goes on from another one runs what follows for the text that has been made. -/
theorem perform_andThen (first : List Action) (next : Sight → String → List Action) :
    perform nested turn e (.andThen first next) =
      (run nested turn e "" first).followedBy fun text e =>
        run nested turn e "" (next (e.sight turn) text) := by
  rw [perform]
  rfl

/-- A program runs its first action and then the others, behind the text that has been made. -/
theorem run_cons (made : String) (action : Action) (rest : List Action) :
    run nested turn e made (action :: rest) =
      (perform nested turn e action).followedBy fun text e =>
        run nested turn e (made ++ text) rest := by
  rw [run]
  rfl

end Steps

/-! ## The replies that a program asks for -/

section Calls

/- `nested` is the reply, one level deeper, to another message of the same user. -/
variable (nested : String → Engine → String × Engine) (turn : Turn)

mutual

/-- The messages for which an action asks for a reply, with the engines to which they are put. -/
def actionCalls (e : Engine) : Action → List (String × Engine)
  | .reply message =>
    programCalls e message ++
      match run nested turn e "" message with
      | (.ok message, e) => [(message, e)]
      | (.error _, _) => []
  | .setTopic name => programCalls e name
  | .setUser _ text => programCalls e text
  | .setBot _ text => programCalls e text
  | .andThen first next =>
    programCalls e first ++
      match run nested turn e "" first with
      | (.ok text, e) => programCalls e (next (e.sight turn) text)
      | (.error _, _) => []
  | _ => []
termination_by structural action => action

/-- The messages for which a program asks for a reply, with the engines to which they are put. -/
def programCalls (e : Engine) : List Action → List (String × Engine)
  | [] => []
  | action :: rest =>
    actionCalls e action ++
      match perform nested turn e action with
      | (.ok _, e) => programCalls e rest
      | (.error _, _) => []
termination_by structural actions => actions

end

end Calls

/-- A reply that is asked for. -/
structure Call where
  depth : Nat
  message : String
  /-- The engine to which the message is put. -/
  engine : Engine

namespace Engine

/-- The replies that are asked for while a reply at a depth is made, that one first. `remaining` is
the distance to the depth limit. -/
def callsAt (user : String) : (remaining depth : Nat) → String → Engine → List Call
  | 0, depth, message, e => [⟨depth, message, e⟩]
  | remaining + 1, depth, message, e =>
    ⟨depth, message, e⟩ ::
      match e.selection user message with
      | none => []
      | some (_, rule, groups) =>
        (programCalls (nestedReply user remaining (depth + 1)) ⟨user, depth, groups⟩
          ((e.scanned user message).emit (.matched rule.name)) rule.handler.program).flatMap
            fun c => callsAt user remaining (depth + 1) c.1 c.2

/-- The replies that are asked for while a message of a user is answered, the answer itself first.
-/
def calls (user message : String) (e : Engine) : List Call :=
  callsAt user e.config.depthLimit 0 message e

end Engine

/-! ## Nothing is missed -/

section Congr

variable {nested nested' : String → Engine → String × Engine} {turn : Turn}

mutual

/-- What an action does depends on the replies that it asks for only. -/
theorem perform_congr (e : Engine) (action : Action)
    (h : ∀ c ∈ actionCalls nested turn e action, nested c.1 c.2 = nested' c.1 c.2) :
    perform nested turn e action = perform nested' turn e action := by
  cases action with
  | reply message =>
    obtain ⟨hmessage, hcall⟩ := List.forall_mem_append.mp h
    rw [perform_reply, perform_reply, ← run_congr e "" message hmessage]
    refine Effect.followedBy_congr fun text e' hrun => ?_
    rw [hrun] at hcall
    rw [List.forall_mem_singleton.mp hcall]
  | setTopic name => rw [perform_setTopic, perform_setTopic, ← run_congr e "" name h]
  | setUser key text => rw [perform_setUser, perform_setUser, ← run_congr e "" text h]
  | setBot key text => rw [perform_setBot, perform_setBot, ← run_congr e "" text h]
  | andThen first next =>
    obtain ⟨hfirst, hnext⟩ := List.forall_mem_append.mp h
    rw [perform_andThen, perform_andThen, ← run_congr e "" first hfirst]
    refine Effect.followedBy_congr fun text e' hrun => ?_
    rw [hrun] at hnext
    exact run_congr e' "" (next (e'.sight turn) text) hnext
  | _ => simp only [perform]
termination_by structural action

/-- Two ways to reply that agree on the calls of a program lead it to the same result. -/
theorem run_congr (e : Engine) (made : String) (program : List Action)
    (h : ∀ c ∈ programCalls nested turn e program, nested c.1 c.2 = nested' c.1 c.2) :
    run nested turn e made program = run nested' turn e made program := by
  cases program with
  | nil => simp only [run]
  | cons action rest =>
    obtain ⟨hfirst, hrest⟩ := List.forall_mem_append.mp h
    rw [run_cons, run_cons, ← perform_congr e action hfirst]
    refine Effect.followedBy_congr fun text e' hperform => ?_
    rw [hperform] at hrest
    exact run_congr e' (made ++ text) rest hrest
termination_by structural program

end

mutual

/-- Which replies an action asks for depends on those that it asks for before. -/
theorem actionCalls_congr (e : Engine) (action : Action)
    (h : ∀ c ∈ actionCalls nested turn e action, nested c.1 c.2 = nested' c.1 c.2) :
    actionCalls nested turn e action = actionCalls nested' turn e action := by
  cases action with
  | reply message =>
    obtain ⟨hmessage, _⟩ := List.forall_mem_append.mp h
    rw [actionCalls, actionCalls, programCalls_congr e message hmessage,
      run_congr e "" message hmessage]
  | setTopic name => exact programCalls_congr e name h
  | setUser key text => exact programCalls_congr e text h
  | setBot key text => exact programCalls_congr e text h
  | andThen first next =>
    obtain ⟨hfirst, hnext⟩ := List.forall_mem_append.mp h
    rw [actionCalls, actionCalls, programCalls_congr e first hfirst, ← run_congr e "" first hfirst]
    cases hrun : run nested turn e "" first with
    | mk result e' =>
      cases result with
      | error error => rfl
      | ok text =>
        rw [hrun] at hnext
        exact congrArg _ (programCalls_congr e' (next (e'.sight turn) text) hnext)
  | _ => rfl
termination_by structural action

/-- Two ways to reply that agree on the calls of a program lead it to the same calls. -/
theorem programCalls_congr (e : Engine) (program : List Action)
    (h : ∀ c ∈ programCalls nested turn e program, nested c.1 c.2 = nested' c.1 c.2) :
    programCalls nested turn e program = programCalls nested' turn e program := by
  cases program with
  | nil => rfl
  | cons action rest =>
    obtain ⟨hfirst, hrest⟩ := List.forall_mem_append.mp h
    rw [programCalls, programCalls, actionCalls_congr e action hfirst,
      ← perform_congr e action hfirst]
    cases hperform : perform nested turn e action with
    | mk result e' =>
      cases result with
      | error error => rfl
      | ok text =>
        rw [hperform] at hrest
        exact congrArg _ (programCalls_congr e' rest hrest)
termination_by structural program

end

end Congr

/-! ## Invariants -/

/-- A property of engines that every step of a reply keeps, but for remembering its text. -/
structure Engine.Invariant (P : Engine → Prop) : Prop where
  emit : ∀ event e, P e → P (e.emit event)
  meet : ∀ user e, P e → P (e.meet user)
  buildCache : ∀ e, P e → P e.buildCache
  changeVars : ∀ user change e, P e → P (e.changeVars user change)
  setTopic : ∀ user topic e, P e → P (e.setTopic user topic)
  changeBotvars : ∀ change e, P e → P (e.changeBotvars change)

namespace Engine.Invariant

variable {P : Engine → Prop}

section Programs

variable {nested : String → Engine → String × Engine} {turn : Turn}

mutual

/-- An action keeps an invariant that the replies it asks for keep. -/
theorem perform (hP : Invariant P) (hnested : ∀ message e, P e → P (nested message e).2)
    (e : Engine) (he : P e) (action : Action) : P (Rejoinder.perform nested turn e action).2 := by
  cases action with
  | group number =>
    simp only [Rejoinder.perform]
    split <;> exact he
  | reply message =>
    rw [perform_reply]
    exact Effect.followedBy_keeps (run hP hnested e he "" message) hnested
  | setTopic name =>
    rw [perform_setTopic]
    exact Effect.followedBy_keeps (run hP hnested e he "" name) fun text e he =>
      hP.setTopic turn.user text e he
  | setUser key text =>
    rw [perform_setUser]
    refine Effect.followedBy_keeps (run hP hnested e he "" text) fun text e he => ?_
    dsimp only
    exact hP.changeVars _ _ _ he
  | setBot key text =>
    rw [perform_setBot]
    refine Effect.followedBy_keeps (run hP hnested e he "" text) fun text e he => ?_
    dsimp only
    exact hP.changeBotvars _ _ he
  | setUserValue key value =>
    simp only [Rejoinder.perform]
    exact hP.changeVars _ _ _ he
  | setBotValue key value =>
    simp only [Rejoinder.perform]
    exact hP.changeBotvars _ _ he
  | deleteUser key =>
    simp only [Rejoinder.perform]
    exact hP.changeVars _ _ _ he
  | deleteBot key =>
    simp only [Rejoinder.perform]
    exact hP.changeBotvars _ _ he
  | increment key =>
    simp only [Rejoinder.perform]
    exact hP.changeBotvars _ _ he
  | andThen first next =>
    rw [perform_andThen]
    exact Effect.followedBy_keeps (run hP hnested e he "" first) fun text e he =>
      run hP hnested e he "" (next (e.sight turn) text)
  | _ => exact he
termination_by structural action

/-- An invariant that nested replies keep is kept by a program. -/
theorem run (hP : Invariant P) (hnested : ∀ message e, P e → P (nested message e).2)
    (e : Engine) (he : P e) (made : String) (program : List Action) :
    P (Rejoinder.run nested turn e made program).2 := by
  cases program with
  | nil => exact he
  | cons action rest =>
    rw [run_cons]
    exact Effect.followedBy_keeps (perform hP hnested e he action) fun text e he =>
      run hP hnested e he (made ++ text) rest
termination_by structural program

end

mutual

/-- An action asks for replies in engines that keep the invariant. -/
theorem mem_actionCalls (hP : Invariant P)
    (hnested : ∀ message e, P e → P (nested message e).2) (e : Engine) (he : P e)
    (action : Action) : ∀ c ∈ actionCalls nested turn e action, P c.2 := by
  cases action with
  | reply message =>
    have hmessage : P (Rejoinder.run nested turn e "" message).2 := hP.run hnested e he "" message
    refine List.forall_mem_append.mpr ⟨mem_programCalls hP hnested e he message, ?_⟩
    split <;> rename_i hrun <;> rw [hrun] at hmessage
    · exact List.forall_mem_singleton.mpr hmessage
    · simp
  | setTopic name => exact mem_programCalls hP hnested e he name
  | setUser key text => exact mem_programCalls hP hnested e he text
  | setBot key text => exact mem_programCalls hP hnested e he text
  | andThen first next =>
    have hfirst : P (Rejoinder.run nested turn e "" first).2 := hP.run hnested e he "" first
    refine List.forall_mem_append.mpr ⟨mem_programCalls hP hnested e he first, ?_⟩
    split <;> rename_i hrun <;> rw [hrun] at hfirst
    · exact mem_programCalls hP hnested _ hfirst (next _ _)
    · simp
  | _ => simp [actionCalls]
termination_by structural action

/-- An invariant that nested replies keep holds wherever a program asks for one. -/
theorem mem_programCalls (hP : Invariant P)
    (hnested : ∀ message e, P e → P (nested message e).2) (e : Engine) (he : P e)
    (program : List Action) : ∀ c ∈ programCalls nested turn e program, P c.2 := by
  cases program with
  | nil => simp [programCalls]
  | cons action rest =>
    have hfirst : P (Rejoinder.perform nested turn e action).2 := hP.perform hnested e he action
    refine List.forall_mem_append.mpr ⟨mem_actionCalls hP hnested e he action, ?_⟩
    split <;> rename_i hperform <;> rw [hperform] at hfirst
    · exact mem_programCalls hP hnested _ hfirst rest
    · simp
termination_by structural program

end

end Programs

section Replies

variable {user : String} (hP : Invariant P)

include hP

/-- Going through the rules keeps an invariant. -/
theorem scanned (message : String) {e : Engine} (he : P e) : P (e.scanned user message) :=
  hP.emit _ _ (hP.buildCache _ (hP.meet _ _ (hP.emit _ _ he)))

/-- A handler keeps an invariant that the replies it asks for keep. -/
theorem handled {remaining depth : Nat} {message : String} {rule : Rule} {groups : Groups}
    (hnested : ∀ message e, P e → P (nestedReply user remaining (depth + 1) message e).2)
    {e : Engine} (he : P e) : P (e.handled user remaining depth message rule groups).2 :=
  hP.run hnested _ (hP.emit _ _ (hP.scanned message he)) _ _

/-- The end of a reply keeps an invariant, if its text is not remembered or if that keeps it too. -/
theorem conclude {depth : Nat} (hremember : depth = 0 → ∀ e previous, P e →
      P (e.setUser user { e.user user with previous := previous }))
    (reply : String) {e : Engine} (he : P e) : P (e.conclude user depth reply) := by
  rw [Engine.conclude]
  split
  · exact hP.emit _ _ he
  · split
    · rename_i hdepth
      exact hremember hdepth _ _ he
    · exact he

/-- A reply keeps an invariant that the replies inside it keep, and remembering an outermost reply.
-/
theorem replyAt_of_nested {remaining depth : Nat} (hremember : depth = 0 → ∀ e previous, P e →
      P (e.setUser user { e.user user with previous := previous }))
    (hnested : ∀ remaining' < remaining, ∀ message e, P e →
      P (nestedReply user remaining' (depth + 1) message e).2)
    (message : String) {e : Engine} (he : P e) : P (replyAt user remaining depth message e).2 := by
  cases remaining with
  | zero =>
    rw [replyAt_zero]
    exact hP.emit _ _ (hP.emit _ _ he)
  | succ remaining =>
    cases hselection : e.selection user message with
    | none =>
      rw [replyAt_of_selection_eq_none hselection]
      dsimp only
      exact hP.conclude hremember _ (hP.scanned message he)
    | some selected =>
      obtain ⟨place, rule, groups⟩ := selected
      have hhandled : P (e.handled user remaining depth message rule groups).2 :=
        hP.handled (hnested remaining (Nat.lt_succ_self _)) he
      rw [replyAt_of_selection_eq_some hselection]
      split <;> rename_i hrun <;> rw [hrun] at hhandled
      · exact hP.conclude hremember _ hhandled
      · dsimp only
        exact hP.conclude hremember _ (hP.emit _ _ hhandled)

/-- A reply that is not an outermost one keeps an invariant. -/
theorem replyAt_nested (remaining : Nat) {depth : Nat} (hdepth : depth ≠ 0) (message : String)
    {e : Engine} (he : P e) : P (replyAt user remaining depth message e).2 := by
  -- The replies that a handler asks for are nearer to the depth limit, at any depth but the first.
  induction remaining using Nat.strongRecOn generalizing depth message e with
  | ind remaining ih =>
    exact hP.replyAt_of_nested (fun h => absurd h hdepth)
      (fun remaining' hlt message e he => ih remaining' hlt (Nat.succ_ne_zero _) message he)
      message he

/-- A reply keeps an invariant that is also kept when its text is remembered. -/
theorem replyAt (hremember : ∀ e previous, P e →
      P (e.setUser user { e.user user with previous := previous }))
    (remaining depth : Nat) (message : String) {e : Engine} (he : P e) :
    P (replyAt user remaining depth message e).2 :=
  hP.replyAt_of_nested (fun _ => hremember)
    (fun remaining' _ message _ he => hP.replyAt_nested remaining' (Nat.succ_ne_zero _) message he)
    message he

/-- An invariant holds wherever a reply is asked for while one is made. -/
theorem mem_callsAt (remaining depth : Nat) (message : String) {e : Engine} (he : P e) :
    ∀ c ∈ callsAt user remaining depth message e, P c.engine := by
  induction remaining generalizing depth message e with
  | zero => exact List.forall_mem_singleton.mpr he
  | succ remaining ih =>
    refine List.forall_mem_cons.mpr ⟨he, ?_⟩
    split
    · simp
    · rename_i rule groups hselection
      intro c hc
      obtain ⟨asked, hasked, hc⟩ := List.mem_flatMap.mp hc
      refine ih (depth + 1) asked.1 (hP.mem_programCalls ?_ _ ?_ _ asked hasked) c hc
      · exact fun message e he => hP.replyAt_nested remaining (Nat.succ_ne_zero _) message he
      · exact hP.emit _ _ (hP.scanned message he)

end Replies

end Engine.Invariant

end Rejoinder
