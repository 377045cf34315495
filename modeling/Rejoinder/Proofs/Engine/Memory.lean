import Mathlib
import Rejoinder.Proofs.Engine.Answer
import Rejoinder.Proofs.Engine.Loading
import Rejoinder.Proofs.Engine.Reachable

/-!
# What is remembered of the replies

An engine remembers the last reply to every user, and rules may ask what it was. What is remembered
is the last reply that the user has seen. This is a statement about the past: the replies are looked
for in the history of the operations that have been performed, from its end back to where the user
was forgotten (`lastVisible`), and the first one that is not empty is the one that is remembered,
normalized by the substitutions of that time (`previousOf_eq_lastVisible`).

Inside a reply nothing is remembered: no step of a handler changes what is known of the last reply
(`invariant_previousOf`), and neither does an answer at a greater depth than zero. So all answers
inside one reply see the same last reply.
-/

set_option autoImplicit false

namespace Rejoinder

namespace Engine

/-! ## Histories -/

/-- An operation that has been performed, with its answer and the engine that it left behind. -/
structure Done where
  operation : Operation
  answer : Answer
  engine : Engine

/-- The operations that are performed one after the other, with what came of them. -/
def history (e : Engine) : List Operation → List Done
  | [] => []
  | o :: rest => ⟨o, (e.perform o).1, (e.perform o).2⟩ :: history (e.perform o).2 rest

/-- The reply that a user gets to see by an operation. An empty reply is not seen. -/
def Done.visible? (user : String) (d : Done) : Option String :=
  match d.operation, d.answer with
  | .reply name _, .reply text => if name = user ∧ text ≠ "" then some text else none
  | .replyVerbose name _, .details details =>
    if name = user ∧ details.reply ≠ "" then some details.reply else none
  | _, _ => none

/-- Whether a user is forgotten by an operation. -/
def Done.forgets (user : String) (d : Done) : Bool :=
  match d.operation with
  | .resetUser name => name = user
  | .resetUsers => true
  | _ => false

/-- The last reply that a user got to see since the user was last forgotten, normalized by the
substitutions at the end of the operation that made it. -/
def lastVisible (user : String) (history : List Done) : Option Text :=
  (history.reverse.takeWhile fun d => !d.forgets user).findSome? fun d =>
    (d.visible? user).map (normalize d.engine.config.substitutions)

/-- One operation more is done in the engine that the others lead to. -/
theorem performAll_append_singleton (e : Engine) (operations : List Operation) (o : Operation) :
    (e.performAll (operations ++ [o])).2 = ((e.performAll operations).2.perform o).2 := by
  induction operations generalizing e with
  | nil => rfl
  | cons first rest ih => exact ih (e.perform first).2

/-- One operation more is one entry more in the history, at its end. -/
theorem history_append_singleton (e : Engine) (operations : List Operation) (o : Operation) :
    e.history (operations ++ [o]) = e.history operations ++
      [⟨o, ((e.performAll operations).2.perform o).1,
          ((e.performAll operations).2.perform o).2⟩] := by
  induction operations generalizing e with
  | nil => rfl
  | cons first rest ih =>
    have hrest := ih (e.perform first).2
    rw [List.cons_append, history, hrest]
    rfl

/-- What a user got to see last, when one operation more has been done. -/
theorem lastVisible_append_singleton (user : String) (before : List Done) (d : Done) :
    lastVisible user (before ++ [d]) =
      if d.forgets user then none
      else ((d.visible? user).map (normalize d.engine.config.substitutions)).or
        (lastVisible user before) := by
  rw [lastVisible, List.reverse_append, List.reverse_singleton, List.singleton_append]
  by_cases hforgets : d.forgets user = true
  · rw [List.takeWhile_cons_of_neg (by simp [hforgets]), if_pos hforgets]
    rfl
  · rw [List.takeWhile_cons_of_pos (by simp [hforgets]), if_neg hforgets, List.findSome?_cons]
    cases d.visible? user <;> rfl

/-! ## Inside a reply -/

/-- No step of a reply changes what is known of the last reply to a user. -/
theorem invariant_previousOf (user : String) (previous : Option Text) :
    Invariant fun e => e.previousOf user = previous where
  emit event e h := (previousOf_emit user e event).trans h
  meet name e h := (previousOf_meet name user e).trans h
  buildCache e h := (previousOf_buildCache user e).trans h
  changeVars name change e h := (previousOf_changeVars name user e change).trans h
  setTopic name topic e h := (previousOf_setTopic name user e topic).trans h
  changeBotvars change e h := (previousOf_changeBotvars user e change).trans h

section Inside

variable {user message : String} {e : Engine}

/-- An answer inside a reply changes what is known of the last reply to no user. -/
theorem previousOf_answer_of_ne_zero {depth : Nat} (hdepth : depth ≠ 0) (other : String) :
    (e.answer user depth message).2.previousOf other = e.previousOf other :=
  (invariant_previousOf other (e.previousOf other)).replyAt_nested _ hdepth message rfl

/-- All engines inside a reply know the same last replies. -/
theorem previousOf_of_mem_calls {c : Call} (hc : c ∈ e.calls user message) (other : String) :
    c.engine.previousOf other = e.previousOf other :=
  (invariant_previousOf other (e.previousOf other)).mem_callsAt _ _ _ rfl c hc

end Inside

/-! ## At the end of a reply -/

section Conclude

variable (user other : String) (reply : String) (e : Engine)

/-- Remembering a reply keeps the settings. -/
theorem config_conclude (depth : Nat) : (e.conclude user depth reply).config = e.config := by
  rw [conclude]
  split
  · exact config_emit _ _
  · split <;> rfl

/-- An outermost reply that is not empty is what was said to its user before, and nothing changes
for the other users. -/
theorem previousOf_conclude_zero :
    (e.conclude user 0 reply).previousOf other =
      if user = other ∧ reply ≠ "" then some (normalize e.config.substitutions reply)
      else e.previousOf other := by
  rw [conclude, if_pos rfl]
  by_cases hempty : reply = ""
  · simp [hempty]
  · rw [if_neg (by simpa using hempty), previousOf_setUser]
    by_cases hother : user = other <;> simp [hother, hempty, eq_comm]

end Conclude

/-- What a reply that is asked for directly leaves to be remembered: its own text if it is not
empty, for its user. -/
theorem previousOf_replyVerbose (user message other : String) (e : Engine) :
    (e.replyVerbose user message).2.previousOf other =
      if user = other ∧ (e.replyVerbose user message).1.reply ≠ "" then
        some (normalize (e.replyVerbose user message).2.config.substitutions
          (e.replyVerbose user message).1.reply)
      else e.previousOf other := by
  rw [replyVerbose]
  cases e.config.depthLimit with
  | zero => simp [replyAt_zero]
  | succ remaining =>
    cases hselection : e.selection user message with
    | none =>
      rw [replyAt_of_selection_eq_none hselection]
      simp [previousOf_conclude_zero]
    | some selected =>
      obtain ⟨place, rule, groups⟩ := selected
      have hP := invariant_previousOf other (e.previousOf other)
      have hhandled : (e.handled user remaining 0 message rule groups).2.previousOf other =
          e.previousOf other :=
        hP.handled (fun _ _ he => hP.replyAt_nested _ (Nat.succ_ne_zero _) _ he) rfl
      rw [replyAt_of_selection_eq_some hselection]
      -- A handler that fails leaves an empty text, which is not remembered.
      split <;> rename_i hrun <;> rw [hrun] at hhandled
      · dsimp only at hhandled ⊢
        rw [previousOf_conclude_zero, config_conclude, hhandled]
      · dsimp only at hhandled ⊢
        rw [previousOf_conclude_zero, previousOf_emit, hhandled]
        simp

/-! ## The last visible reply -/

/-- One operation more, and what is remembered follows the history. -/
theorem previousOf_perform (user : String) (e : Engine) (o : Operation) (d : Done)
    (hd : d = ⟨o, (e.perform o).1, (e.perform o).2⟩) :
    (e.perform o).2.previousOf user =
      if d.forgets user then none
      else ((d.visible? user).map (normalize d.engine.config.substitutions)).or
        (e.previousOf user) := by
  subst hd
  cases o with
  | load source => exact previousOf_congr user (load_frame source e).2.2.1
  | reply name message =>
    have hreply := previousOf_replyVerbose name message user e
    refine hreply.trans ?_
    simp only [Done.forgets, Done.visible?, perform, Engine.reply]
    split <;> rfl
  | replyVerbose name message =>
    have hreply := previousOf_replyVerbose name message user e
    refine hreply.trans ?_
    simp only [Done.forgets, Done.visible?, perform]
    split <;> rfl
  | buildCache => exact previousOf_buildCache user e
  | ruleTable => exact previousOf_buildCache user e
  | changeVars name change => exact previousOf_changeVars name user e change
  | setTopic name topic => exact previousOf_setTopic name user e topic
  | resetUser name =>
    simp only [perform, Done.forgets, Done.visible?, previousOf, resetUser, Table.get?_erase]
    by_cases hname : user = name <;> simp [hname, eq_comm]
  | resetUsers => rfl
  | _ => rfl

/-- What was said to a user before is, after every run, the last reply that the user got to see. -/
theorem previousOf_performAll (config : Config) (grammar : Grammar) (user : String)
    (operations : List Operation) :
    ((withGrammar config grammar).performAll operations).2.previousOf user =
      lastVisible user ((withGrammar config grammar).history operations) := by
  induction operations using List.reverseRecOn with
  | nil => exact previousOf_emit user _ .created
  | append_singleton operations o ih =>
    rw [performAll_append_singleton, history_append_singleton, lastVisible_append_singleton, ← ih]
    exact previousOf_perform user _ o _ rfl

/-- After any operations on a new engine, what is remembered for a user is the last reply that the
user got to see. While a message is answered, all rules are held against what was remembered before,
for the message itself and for every message that a handler asks about, and an answer to one of
these changes what is remembered for no user. -/
theorem previousOf_eq_lastVisible (config : Config) (grammar : Grammar)
    (operations : List Operation) :
    let e := ((withGrammar config grammar).performAll operations).2
    (∀ user, e.previousOf user =
        lastVisible user ((withGrammar config grammar).history operations)) ∧
      ∀ user message, ∀ c ∈ e.calls user message,
        c.engine.selection user c.message =
            firstMatch (normalize c.engine.config.substitutions c.message) (e.previousOf user)
              (c.engine.scanned user c.message).candidates ∧
          (c.depth ≠ 0 → ∀ other,
            (c.engine.answer user c.depth c.message).2.previousOf other =
              c.engine.previousOf other) := by
  intro e
  refine ⟨fun user => previousOf_performAll config grammar user operations, ?_⟩
  intro user message c hc
  refine ⟨?_, fun hdepth other => previousOf_answer_of_ne_zero hdepth other⟩
  rw [selection, previousOf_scanned, previousOf_of_mem_calls hc]

end Engine

end Rejoinder
