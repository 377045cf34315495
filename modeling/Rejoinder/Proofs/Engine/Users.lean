import Rejoinder.Proofs.Engine.Lockstep
import Rejoinder.Proofs.Engine.Prepared
import Rejoinder.Proofs.Engine.Restart

/-!
# Users do not interfere

Two engines look the same to a user if they have the same settings and bot variables, know the same
of that user, and have topics that are the same once they are built (`Agree`). They may know
anything of other users, and the rules of one of them may be compiled when those of the other are
not. Whatever is done for the user in two such engines has the same answers and leaves two such
engines behind (`Agree.perform`), and what is done for another user in one of them alone is not
noticed (`Agree.perform_other`), provided that no handler writes a bot variable, which all users
see. So the operations for other users can be left out of a run without a user noticing it
(`answersTo_withoutOthers`).
-/

set_option autoImplicit false

namespace Rejoinder

/-- A program in which no action changes a variable of the bot. -/
def KeepsBotvars (program : List Action) : Prop :=
  Program.Every (fun action => action.writesBot = false) program

namespace Engine

/-- Two engines look the same to a user. -/
structure Agree (grammar : Grammar) (user : String) (e e' : Engine) : Prop where
  coherent : Coherent grammar e
  coherent' : Coherent grammar e'
  programs : HasPrograms KeepsBotvars e
  programs' : HasPrograms KeepsBotvars e'
  config : e.config = e'.config
  botvars : e.botvars = e'.botvars
  known : e.users.get? user = e'.users.get? user
  topics : ∀ name, (e.topics.get? name).map (Topic.build grammar) =
    (e'.topics.get? name).map (Topic.build grammar)

variable {grammar : Grammar} {user other : String} {e e' e₁ e₁' : Engine}

namespace Agree

/-- Looking the same to a user goes both ways. -/
theorem symm (h : Agree grammar user e e') : Agree grammar user e' e :=
  ⟨h.coherent', h.coherent, h.programs', h.programs, h.config.symm, h.botvars.symm, h.known.symm,
    fun name => (h.topics name).symm⟩

/-! ### What the user sees -/

/-- Engines that look the same to a user have the same record of the user. -/
theorem user_eq (h : Agree grammar user e e') : e.user user = e'.user user := by
  rw [Engine.user, Engine.user, h.known]

/-- Engines that look the same to a user have the same variables of the user. -/
theorem uservars (h : Agree grammar user e e') : e.uservars? user = e'.uservars? user := by
  rw [uservars?, uservars?, h.known]

/-- Engines that look the same to a user have the user in the same topic. -/
theorem topicOf (h : Agree grammar user e e') : e.topicOf? user = e'.topicOf? user := by
  rw [topicOf?, topicOf?, h.known]

/-- Engines that look the same to a user have said the same to the user before. -/
theorem previousOf (h : Agree grammar user e e') : e.previousOf user = e'.previousOf user := by
  rw [Engine.previousOf, Engine.previousOf, h.known]

/-- Engines that look the same to a user have topics of the same names. -/
theorem contains (h : Agree grammar user e e') (name : String) :
    e.topics.contains name = e'.topics.contains name := by
  have htopics := congrArg Option.isSome (h.topics name)
  rwa [Option.isSome_map, Option.isSome_map] at htopics

/-- Engines that look the same to a user try the same rules, in the same order. -/
theorem candidates (h : Agree grammar user e e') :
    e.buildCache.candidates = e'.buildCache.candidates := by
  rw [Engine.candidates, Engine.candidates, topic?, topic?, h.coherent.get?_buildCache,
    h.coherent'.get?_buildCache, h.topics]

/-! ### Steps of both engines -/

/-- Where the rules stay as they are, only the settings and the variables have to be compared. -/
theorem of_sameRules (h : Agree grammar user e e') (h₁ : SameRules e₁ e) (h₁' : SameRules e₁' e')
    (hconfig : e₁.config = e₁'.config) (hbotvars : e₁.botvars = e₁'.botvars)
    (hknown : e₁.users.get? user = e₁'.users.get? user) : Agree grammar user e₁ e₁' := by
  obtain ⟨hgrammar, htopics, hbuilt⟩ := h₁
  obtain ⟨hgrammar', htopics', hbuilt'⟩ := h₁'
  refine ⟨h.coherent.congr hgrammar htopics hbuilt,
    h.coherent'.congr hgrammar' htopics' hbuilt', h.programs.congr htopics,
    h.programs'.congr htopics', hconfig, hbotvars, hknown, ?_⟩
  rw [htopics, htopics']
  exact h.topics

/-- The journals do not count. -/
theorem congr (h : Agree grammar user e e') (h₁ : e₁.clearEvents = e.clearEvents)
    (h₁' : e₁'.clearEvents = e'.clearEvents) : Agree grammar user e₁ e₁' := by
  obtain ⟨journal, rfl⟩ := clearEvents_eq_iff.mp h₁
  obtain ⟨journal', rfl⟩ := clearEvents_eq_iff.mp h₁'
  exact h.of_sameRules ⟨rfl, rfl, rfl⟩ ⟨rfl, rfl, rfl⟩ h.config h.botvars h.known

/-- Putting down a record of the user keeps two engines the same to the user. -/
theorem setUser (h : Agree grammar user e e') (u : User) :
    Agree grammar user (e.setUser user u) (e'.setUser user u) := by
  refine h.of_sameRules ⟨rfl, rfl, rfl⟩ ⟨rfl, rfl, rfl⟩ h.config h.botvars ?_
  rw [Engine.setUser, Engine.setUser, Table.get?_insert, Table.get?_insert, if_pos rfl, if_pos rfl]

/-- Meeting the user keeps two engines the same to the user. -/
theorem meet (h : Agree grammar user e e') : Agree grammar user (e.meet user) (e'.meet user) := by
  obtain ⟨journal, hmeet⟩ := exists_journal_meet user e
  obtain ⟨journal', hmeet'⟩ := exists_journal_meet user e'
  have hmet : e.met user = e'.met user := by rw [met, met, h.user_eq, h.contains]
  rw [hmet] at hmeet
  exact (h.setUser (e'.met user)).congr (by rw [hmeet]; rfl) (by rw [hmeet']; rfl)

/-- A change of the variables of the user keeps two engines the same to the user. -/
theorem changeVars (h : Agree grammar user e e') (change : Vars → Vars) :
    Agree grammar user (e.changeVars user change) (e'.changeVars user change) := by
  rw [Engine.changeVars, Engine.changeVars, h.user_eq]
  exact h.setUser _

/-- A change of the topic of the user keeps two engines the same to the user. -/
theorem setTopic (h : Agree grammar user e e') (topic : String) :
    Agree grammar user (e.setTopic user topic) (e'.setTopic user topic) := by
  rw [Engine.setTopic, Engine.setTopic, h.user_eq]
  exact h.setUser _

/-- A change of the bot variables keeps two engines the same to the user. -/
theorem changeBotvars (h : Agree grammar user e e') (change : Vars → Vars) :
    Agree grammar user (e.changeBotvars change) (e'.changeBotvars change) :=
  h.of_sameRules ⟨rfl, rfl, rfl⟩ ⟨rfl, rfl, rfl⟩ h.config (congrArg change h.botvars) h.known

/-- A load of scripts whose handlers keep the bot variables keeps two engines the same to the user.
-/
theorem load (h : Agree grammar user e e') {source : Source}
    (hsource : source.HasPrograms KeepsBotvars) :
    Agree grammar user (e.load source).2 (e'.load source).2 := by
  obtain ⟨hconfig, _, husers, _⟩ := load_frame source e
  obtain ⟨hconfig', _, husers', _⟩ := load_frame source e'
  have halike := (load_alike source (h.coherent.grammar_eq.trans h.coherent'.grammar_eq.symm)).2
  refine ⟨h.coherent.load source, h.coherent'.load source, hasPrograms_load hsource e,
    hasPrograms_load hsource e', ?_, ?_, ?_, fun name => by rw [halike]⟩
  · rw [hconfig, hconfig', h.config]
  · rw [botvars_load, botvars_load, h.botvars]
  · rw [husers, husers', h.known]

/-- A new alternate keeps two engines the same to the user. -/
theorem addAlternate (h : Agree grammar user e e') (topic name value : String) :
    Agree grammar user (e.addAlternate topic name value) (e'.addAlternate topic name value) := by
  refine ⟨h.coherent.addAlternate topic name value, h.coherent'.addAlternate topic name value,
    h.programs.addAlternate topic name value, h.programs'.addAlternate topic name value, h.config,
    h.botvars, h.known, ?_⟩
  intro name'
  rw [Engine.addAlternate, Engine.addAlternate, Table.get?_insert, Table.get?_insert]
  split
  · have hbuild : ∀ t : Option Topic,
        ((t.getD (Topic.new topic)).addAlternate name value).build grammar =
          (((t.map (Topic.build grammar)).getD ((Topic.new topic).build grammar)).addAlternate name
            value).build grammar := by
      intro t
      cases t <;> exact (Topic.build_addAlternate_build _ _ _ _).symm
    rw [Option.map_some, Option.map_some, hbuild, hbuild, h.topics]
  · exact h.topics name'

/-- A new substitution keeps two engines the same to the user. -/
theorem addSubstitution (h : Agree grammar user e e') (word replacement : String) :
    Agree grammar user (e.addSubstitution word replacement)
      (e'.addSubstitution word replacement) :=
  h.of_sameRules ⟨rfl, rfl, rfl⟩ ⟨rfl, rfl, rfl⟩
    (congrArg (Config.withSubstitution word replacement) h.config) h.botvars h.known

/-- Forgetting any user keeps two engines the same to the user. -/
theorem resetUser (h : Agree grammar user e e') (name : String) :
    Agree grammar user (e.resetUser name) (e'.resetUser name) := by
  refine h.of_sameRules ⟨rfl, rfl, rfl⟩ ⟨rfl, rfl, rfl⟩ h.config h.botvars ?_
  rw [Engine.resetUser, Engine.resetUser, Table.get?_erase, Table.get?_erase, h.known]

/-- Forgetting all users keeps two engines the same to the user. -/
theorem resetUsers (h : Agree grammar user e e') :
    Agree grammar user e.resetUsers e'.resetUsers :=
  h.of_sameRules ⟨rfl, rfl, rfl⟩ ⟨rfl, rfl, rfl⟩ h.config h.botvars rfl

/-! ### Steps of one engine -/

/-- Building the rules of one engine is not noticed. -/
theorem buildCache_left (h : Agree grammar user e e') : Agree grammar user e.buildCache e' := by
  refine ⟨h.coherent.buildCache, h.coherent', h.programs.buildCache, h.programs', ?_, ?_, ?_, ?_⟩
  · rw [config_buildCache, h.config]
  · rw [botvars_buildCache, h.botvars]
  · rw [users_buildCache, h.known]
  · intro name
    rw [h.coherent.get?_buildCache, Option.map_map, ← h.topics]
    exact congrArg (fun f => Option.map f (e.topics.get? name))
      (funext (Topic.build_build grammar))

/-- Building keeps two engines the same to the user. -/
theorem buildCache (h : Agree grammar user e e') :
    Agree grammar user e.buildCache e'.buildCache :=
  h.buildCache_left.symm.buildCache_left.symm

/-- What becomes of another user is not noticed. -/
theorem setUser_left (h : Agree grammar user e e') (hother : other ≠ user) (u : User) :
    Agree grammar user (e.setUser other u) e' := by
  refine h.of_sameRules ⟨rfl, rfl, rfl⟩ ⟨rfl, rfl, rfl⟩ h.config h.botvars ?_
  rw [Engine.setUser, Table.get?_insert, if_neg hother.symm, h.known]

/-- Meeting another user in one of two engines does not show in it. -/
theorem meet_left (h : Agree grammar user e e') (hother : other ≠ user) :
    Agree grammar user (e.meet other) e' := by
  obtain ⟨journal, hmeet⟩ := exists_journal_meet other e
  exact (h.setUser_left hother (e.met other)).congr (by rw [hmeet]; rfl) rfl

/-- Forgetting another user in one of two engines does not show in it. -/
theorem resetUser_left (h : Agree grammar user e e') (hother : other ≠ user) :
    Agree grammar user (e.resetUser other) e' := by
  refine h.of_sameRules ⟨rfl, rfl, rfl⟩ ⟨rfl, rfl, rfl⟩ h.config h.botvars ?_
  rw [Engine.resetUser, Table.get?_erase, if_neg hother.symm, h.known]

end Agree

/-! ## Replies -/

/-- Engines that look the same to a user stay so while they reply to the user. -/
theorem lockstep_agree (grammar : Grammar) (user : String) :
    Lockstep (fun action => action.writesBot = false) user (Agree grammar user) where
  emit event _ _ h := h.congr (clearEvents_emit event _) (clearEvents_emit event _)
  meet h := h.meet
  buildCache h := h.buildCache
  insertVar _ _ _ _ h := h.changeVars _
  eraseVar _ _ _ h := h.changeVars _
  remember previous _ _ h := by
    rw [h.user_eq]
    exact h.setUser _
  changeBotvars _ _ _ change _ _ h := h.changeBotvars change
  depthLimit h := congrArg Config.depthLimit h.config
  substitutions h := congrArg Config.substitutions h.config
  topic _ _ _ h := by rw [h.uservars]
  getUser _ _ _ _ _ h := by rw [h.uservars]
  andThen _ _ _ _ _ h turn hturn _ := by
    subst hturn
    rw [sight_congr h.uservars h.botvars]
  botvars h := h.botvars
  previousOf h := h.previousOf
  candidates h := h.candidates
  programs h := h.programs.candidates

/-- An engine goes on looking the same to a user while it replies to another one. -/
theorem lockstep_agree_left (grammar : Grammar) {user other : String} (hother : other ≠ user)
    (e' : Engine) : Lockstep (fun action => action.writesBot = false) other
      (fun e₁ e₂ => e₁ = e₂ ∧ Agree grammar user e₁ e') where
  -- Only one engine replies, so it is compared with itself, and `e'` stands still beside it.
  emit event _ _ h := ⟨congrArg _ h.1, h.2.congr (clearEvents_emit event _) rfl⟩
  meet h := ⟨congrArg _ h.1, h.2.meet_left hother⟩
  buildCache h := ⟨congrArg _ h.1, h.2.buildCache_left⟩
  insertVar _ _ _ _ h := ⟨by rw [h.1], h.2.setUser_left hother _⟩
  eraseVar _ _ _ h := ⟨by rw [h.1], h.2.setUser_left hother _⟩
  remember previous _ _ h := ⟨by rw [h.1], h.2.setUser_left hother _⟩
  changeBotvars _ hkeeps hwrites := by
    rw [hkeeps] at hwrites
    contradiction
  depthLimit h := by rw [h.1]
  substitutions h := by rw [h.1]
  topic _ _ _ h := by rw [h.1]
  getUser _ _ _ _ _ h := by rw [h.1]
  andThen _ _ _ _ _ h _ _ _ := by rw [h.1]
  botvars h := by rw [h.1]
  previousOf h := by rw [h.1]
  candidates h := by rw [h.1]
  programs h := h.2.programs.candidates

/-- A reply to the user is the same in engines that look the same to the user. -/
theorem Agree.replyVerbose (h : Agree grammar user e e') (message : String) :
    (e.replyVerbose user message).1 = (e'.replyVerbose user message).1 ∧
      Agree grammar user (e.replyVerbose user message).2 (e'.replyVerbose user message).2 :=
  (lockstep_agree grammar user).replyVerbose message h

/-- A reply to another user does not show, since handlers keep the bot variables. -/
theorem Agree.replyVerbose_left (h : Agree grammar user e e') (hother : other ≠ user)
    (message : String) : Agree grammar user (e.replyVerbose other message).2 e' :=
  ((lockstep_agree_left grammar hother e').replyVerbose message ⟨rfl, h⟩).2.2

end Engine

/-! ## Operations -/

namespace Operation

/-- Whether an operation is done for this user. -/
def concerns (user : String) : Operation → Bool
  | .reply name _ => name = user
  | .replyVerbose name _ => name = user
  | .uservars name => name = user
  | .changeVars name _ => name = user
  | .topicOf name => name = user
  | .setTopic name _ => name = user
  | .resetUser name => name = user
  | _ => false

/-- Whether an operation is done for another user and may change what is known of that one. -/
def changesOther (user : String) : Operation → Bool
  | .reply name _ => name ≠ user
  | .replyVerbose name _ => name ≠ user
  | .changeVars name _ => name ≠ user
  | .setTopic name _ => name ≠ user
  | .resetUser name => name ≠ user
  | _ => false

end Operation

namespace Engine

variable {grammar : Grammar} {user : String} {e e' : Engine}

/-- What is done for another user is not noticed. -/
theorem Agree.perform_other (h : Agree grammar user e e') {o : Operation}
    (ho : o.changesOther user = true) : Agree grammar user (e.perform o).2 e' := by
  cases o with
  | reply other message => exact h.replyVerbose_left (of_decide_eq_true ho) message
  | replyVerbose other message => exact h.replyVerbose_left (of_decide_eq_true ho) message
  | changeVars other change => exact h.setUser_left (of_decide_eq_true ho) _
  | setTopic other topic => exact h.setUser_left (of_decide_eq_true ho) _
  | resetUser other => exact h.resetUser_left (of_decide_eq_true ho)
  | _ => contradiction

/-- Any other operation can be performed in both engines, and gives the same answer if it is done
for the user. -/
theorem Agree.perform (h : Agree grammar user e e') {o : Operation}
    (ho : o.changesOther user = false)
    (hload : ∀ source, o = .load source → source.HasPrograms KeepsBotvars) :
    Agree grammar user (e.perform o).2 (e'.perform o).2 ∧
      (o.concerns user = true → (e.perform o).1 = (e'.perform o).1) := by
  have hself : ∀ name, decide (name ≠ user) = false → name = user := by simp
  cases o with
  | load source => exact ⟨h.load (hload source rfl), nofun⟩
  | reply name message =>
    obtain rfl := hself name ho
    obtain ⟨hdetails, hafter⟩ := h.replyVerbose message
    exact ⟨hafter, fun _ => congrArg (fun d : ReplyDetails => Answer.reply d.reply) hdetails⟩
  | replyVerbose name message =>
    obtain rfl := hself name ho
    obtain ⟨hdetails, hafter⟩ := h.replyVerbose message
    exact ⟨hafter, fun _ => congrArg Answer.details hdetails⟩
  | buildCache => exact ⟨h.buildCache, nofun⟩
  | ruleTable => exact ⟨h.buildCache, nofun⟩
  | addAlternate topic name value => exact ⟨h.addAlternate topic name value, nofun⟩
  | addSubstitution word replacement => exact ⟨h.addSubstitution word replacement, nofun⟩
  | changeBotvars change => exact ⟨h.changeBotvars change, nofun⟩
  | uservars name =>
    refine ⟨h, fun hname => ?_⟩
    obtain rfl : name = user := of_decide_eq_true hname
    exact congrArg Answer.vars h.uservars
  | changeVars name change =>
    obtain rfl := hself name ho
    refine ⟨h.changeVars change, fun _ => ?_⟩
    exact congrArg (fun u : User => Answer.vars (some u.vars)) h.user_eq
  | topicOf name =>
    refine ⟨h, fun hname => ?_⟩
    obtain rfl : name = user := of_decide_eq_true hname
    exact congrArg Answer.name h.topicOf
  | setTopic name topic =>
    obtain rfl := hself name ho
    exact ⟨h.setTopic topic, fun _ => rfl⟩
  | resetUser name =>
    obtain rfl := hself name ho
    exact ⟨h.resetUser name, fun _ => congrArg (fun u => Answer.known (Option.isSome u)) h.known⟩
  | resetUsers => exact ⟨h.resetUsers, nofun⟩
  | _ => exact ⟨h, nofun⟩

/-! ## Runs -/

/-- The answers to the operations of a run that are done for a user. -/
def answersTo (user : String) (e : Engine) (operations : List Operation) : List Answer :=
  ((operations.zip (e.performAll operations).1).filter fun done => done.1.concerns user).map
    Prod.snd

/-- A run without the operations that change what is known of other users. -/
def withoutOthers (user : String) (operations : List Operation) : List Operation :=
  operations.filter fun o => !o.changesOther user

/-- The answers to a user, operation by operation. -/
theorem answersTo_cons (user : String) (e : Engine) (o : Operation) (rest : List Operation) :
    answersTo user e (o :: rest) =
      (if o.concerns user then [(e.perform o).1] else []) ++
        answersTo user (e.perform o).2 rest := by
  have hrun : (e.performAll (o :: rest)).1 =
      (e.perform o).1 :: ((e.perform o).2.performAll rest).1 := rfl
  rw [answersTo, hrun, List.zip_cons_cons, List.filter_cons]
  dsimp only
  split
  · rw [List.map_cons]
    rfl
  · rfl

/-- What is done for another user is not done for this one. -/
theorem not_concerns_of_changesOther {o : Operation} (h : o.changesOther user = true) :
    o.concerns user = false := by
  cases o <;> simp_all [Operation.changesOther, Operation.concerns]

/-- Two engines that look the same to a user, and the user gets the same answers and finds the same
engine in the end if the operations for others are left out in one of them. -/
theorem Agree.performAll (h : Agree grammar user e e') (operations : List Operation)
    (hload : ∀ source, .load source ∈ operations → source.HasPrograms KeepsBotvars) :
    answersTo user e operations = answersTo user e' (withoutOthers user operations) ∧
      Agree grammar user (e.performAll operations).2
        (e'.performAll (withoutOthers user operations)).2 := by
  induction operations generalizing e e' with
  | nil => exact ⟨rfl, h⟩
  | cons o rest ih =>
    have hrest := fun source hsource => hload source (List.mem_cons_of_mem o hsource)
    cases ho : o.changesOther user with
    | true =>
      have hwithout : withoutOthers user (o :: rest) = withoutOthers user rest :=
        List.filter_cons_of_neg (by simp [ho])
      obtain ⟨hanswers, hafter⟩ := ih (h.perform_other ho) hrest
      rw [hwithout, answersTo_cons, not_concerns_of_changesOther ho]
      exact ⟨hanswers, hafter⟩
    | false =>
      have hwithout : withoutOthers user (o :: rest) = o :: withoutOthers user rest :=
        List.filter_cons_of_pos (by simp [ho])
      obtain ⟨hstep, hanswer⟩ := h.perform ho fun source hsource =>
        hload source (hsource ▸ List.mem_cons_self)
      obtain ⟨hanswers, hafter⟩ := ih hstep hrest
      rw [hwithout, answersTo_cons, answersTo_cons, hanswers]
      refine ⟨?_, hafter⟩
      split
      · rename_i hconcerns
        rw [hanswer hconcerns]
      · rfl

/-- Users do not interfere. If no handler writes a bot variable, the operations that change what is
known of other users can be left out of a run: every operation for the user has the same answer, and
the user's variables, topic and last reply are the same in the end. -/
theorem answersTo_withoutOthers (config : Config) (grammar : Grammar) (user : String)
    (operations : List Operation)
    (hload : ∀ source, .load source ∈ operations → source.HasPrograms KeepsBotvars) :
    let e := withGrammar config grammar
    let after := (e.performAll operations).2
    let after' := (e.performAll (withoutOthers user operations)).2
    answersTo user e operations = answersTo user e (withoutOthers user operations) ∧
      after.uservars? user = after'.uservars? user ∧ after.topicOf? user = after'.topicOf? user ∧
      after.previousOf user = after'.previousOf user := by
  intro e after after'
  have hcoherent : Coherent grammar e := coherent_withGrammar config grammar
  have hprograms : HasPrograms KeepsBotvars e := hasPrograms_withGrammar config grammar
  have hstart : Agree grammar user e e :=
    ⟨hcoherent, hcoherent, hprograms, hprograms, rfl, rfl, rfl, fun _ => rfl⟩
  obtain ⟨hanswers, hafter⟩ := hstart.performAll operations hload
  exact ⟨hanswers, hafter.uservars, hafter.topicOf, hafter.previousOf⟩

/-- The second of two greetings gets the same answer if the first one, by another user, is left out.
-/
theorem answersTo_withoutOthers_greetings :
    let e := withGrammar .default .bundled
    let operations : List Operation :=
      [.load .greetings, .reply "ann" "hello you there", .setTopic "ann" "weather",
        .reply "bob" "hello you", .uservars "bob"]
    let without : List Operation :=
      [.load .greetings, .reply "bob" "hello you", .uservars "bob"]
    withoutOthers "bob" operations = without ∧
      answersTo "bob" e operations = answersTo "bob" e without ∧
      (answersTo "bob" e without).length = 2 := by
  intro e operations without
  have hprograms : Source.greetings.HasPrograms KeepsBotvars := by
    simp [Source.HasPrograms, Source.greetings, KeepsBotvars, Program.Every, Action.Every,
      Action.writesBot]
  have hload : ∀ source, .load source ∈ operations → source.HasPrograms KeepsBotvars := by
    intro source hsource
    obtain rfl : source = .greetings := by simpa [operations] using hsource
    exact hprograms
  have hanswers := (answersTo_withoutOthers .default .bundled "bob" operations hload).1
  refine ⟨rfl, hanswers, ?_⟩
  decide +kernel

end Engine

end Rejoinder
