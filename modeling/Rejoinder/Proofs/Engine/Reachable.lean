import Rejoinder.Engine.Operation
import Rejoinder.Proofs.Engine.Calls

/-!
# Engines that can be reached

An engine can be reached if it is new, if an operation leaves it behind, or if a handler of it asks
for a reply, so that engines inside a reply are among them (`Reachable`). What every operation keeps
and a new engine has is had by every engine that can be reached (`Lasting.of_reachable`).
-/

set_option autoImplicit false

namespace Rejoinder

namespace Engine

/-- The engines that can come about from a new engine with this configuration and this grammar. -/
inductive Reachable (config : Config) (grammar : Grammar) : Engine → Prop
  | start : Reachable config grammar (withGrammar config grammar)
  /-- An operation has been performed. -/
  | perform {e : Engine} (o : Operation) (h : Reachable config grammar e) :
    Reachable config grammar (e.perform o).2
  /-- A message of a user is being answered, and a handler asks for a further reply. -/
  | call {e : Engine} (user message : String) (h : Reachable config grammar e) {c : Call}
    (hc : c ∈ e.calls user message) : Reachable config grammar c.engine

/-- A property of engines that every operation keeps. -/
structure Lasting (P : Engine → Prop) : Prop extends Invariant P where
  setUser : ∀ user u e, P e → P (e.setUser user u)
  load : ∀ source e, P e → P (e.load source).2
  addAlternate : ∀ topic name value e, P e → P (e.addAlternate topic name value)
  addSubstitution : ∀ word replacement e, P e → P (e.addSubstitution word replacement)
  resetUser : ∀ user e, P e → P (e.resetUser user)
  resetUsers : ∀ e, P e → P e.resetUsers

variable {config : Config} {grammar : Grammar} {e : Engine}

/-- Performing operations leads from reachable engines to reachable ones. -/
theorem Reachable.performAll (h : Reachable config grammar e) (operations : List Operation) :
    Reachable config grammar (e.performAll operations).2 := by
  induction operations generalizing e with
  | nil => exact h
  | cons o rest ih => exact ih (h.perform o)

namespace Lasting

variable {P : Engine → Prop} (hP : Lasting P)

include hP

/-- A reply keeps a lasting property. -/
theorem replyVerbose (user message : String) (he : P e) : P (e.replyVerbose user message).2 := by
  rw [Engine.replyVerbose]
  exact hP.replyAt (fun e _ he => hP.setUser _ _ e he) _ _ _ he

/-- Every operation keeps a lasting property. -/
theorem perform (o : Operation) (he : P e) : P (e.perform o).2 := by
  cases o with
  | load source => exact hP.load source e he
  | reply user message => exact hP.replyVerbose user message he
  | replyVerbose user message => exact hP.replyVerbose user message he
  | buildCache => exact hP.buildCache e he
  | ruleTable => exact hP.buildCache e he
  | addAlternate topic name value => exact hP.addAlternate topic name value e he
  | addSubstitution word replacement => exact hP.addSubstitution word replacement e he
  | changeBotvars change => exact hP.changeBotvars change e he
  | changeVars user change => exact hP.changeVars user change e he
  | setTopic user topic => exact hP.setTopic user topic e he
  | resetUser user => exact hP.resetUser user e he
  | resetUsers => exact hP.resetUsers e he
  | _ => exact he

/-- In all replies inside a reply a lasting property holds. -/
theorem mem_calls (user message : String) (he : P e) : ∀ c ∈ e.calls user message, P c.engine :=
  hP.mem_callsAt _ _ _ he

/-- What a new engine has and every operation keeps, every engine has that can be reached. -/
theorem of_reachable (hstart : P (withGrammar config grammar)) (h : Reachable config grammar e) :
    P e := by
  induction h with
  | start => exact hstart
  | perform o _ ih => exact hP.perform o ih
  | call user message _ hc ih => exact hP.mem_calls user message ih _ hc

end Lasting

end Engine

/-- A source with two rules for greetings. The second one asks for a better match. -/
def Source.greetings : Source :=
  ⟨"greetings", [.ok ⟨"hello", "", .assign [],
    [.rule ⟨"any", "hello *", "", 0, ⟨.shared "any", [.literal "hi"]⟩⟩,
      .rule ⟨"one", "hello _", "", 1, ⟨.shared "one", [.literal "hi, ", .group 0]⟩⟩]⟩]⟩

end Rejoinder
