import Rejoinder.Proofs.Engine.Calls

/-!
# Replies at a depth

`answer` is the reply to a message at a depth, as the caller of an engine gets it at depth zero and
a handler gets it at a greater depth. What `replyAt` recurses on, the distance to the depth limit,
does not occur in it: the limit is the same for all engines inside a reply, since no handler can
change it. So an answer can be unfolded into the answers one level deeper
(`answer_of_selection_eq_none`, `answer_of_selection_eq_some`).
-/

set_option autoImplicit false

namespace Rejoinder

namespace Engine

/-- The reply to a message at a depth. -/
def answer (user : String) (depth : Nat) (message : String) (e : Engine) : ReplyDetails × Engine :=
  replyAt user (e.config.depthLimit - depth) depth message e

/-- The text of the reply to a message at a depth, as handlers get it. -/
def answerText (user : String) (depth : Nat) (message : String) (e : Engine) : String × Engine :=
  ((e.answer user depth message).1.reply, (e.answer user depth message).2)

/-- The settings of an engine stay as they are throughout a reply. -/
theorem invariant_config (config : Config) : Invariant fun e => e.config = config where
  emit event e h := (config_emit event e).trans h
  meet user e h := (config_meet user e).trans h
  buildCache e h := (config_buildCache e).trans h
  changeVars _ _ _ h := h
  setTopic _ _ _ h := h
  changeBotvars _ _ h := h

/-- The replies that the handler of a rule gets are answers one level deeper. The depth limit is the
same for all of them, since no handler can change it. -/
theorem handled_eq_run {user message : String} {remaining depth : Nat} {e : Engine}
    (hremaining : e.config.depthLimit - depth = remaining + 1) (rule : Rule) (groups : Groups) :
    e.handled user remaining depth message rule groups =
      run (answerText user (depth + 1)) ⟨user, depth, groups⟩
        ((e.scanned user message).emit (.matched rule.name)) "" rule.handler.program := by
  have hconfig := invariant_config e.config
  refine run_congr _ _ _ fun c hc => ?_
  have hc' : c.2.config = e.config := by
    refine hconfig.mem_programCalls ?_ _ ?_ _ c hc
    · intro message e' he'
      exact hconfig.replyAt_nested remaining (Nat.succ_ne_zero _) message he'
    · rw [config_emit, config_scanned]
  have hlimit : c.2.config.depthLimit - (depth + 1) = remaining := by
    rw [hc']
    omega
  rw [nestedReply, answerText, answer, hlimit]

section Answer

variable {user message : String} {depth : Nat} {e : Engine}

/-- Where no rule matches, the answer is empty and tells how many rules were tried. -/
theorem answer_of_selection_eq_none (hdepth : depth < e.config.depthLimit)
    (h : e.selection user message = none) :
    e.answer user depth message =
      (⟨"", String.ofList (normalize e.config.substitutions message), none,
          (e.scanned user message).candidates.length, depth, .noMatch⟩,
        (e.scanned user message).conclude user depth "") := by
  obtain ⟨remaining, hremaining⟩ := Nat.exists_eq_succ_of_ne_zero (Nat.sub_ne_zero_of_lt hdepth)
  rw [answer, hremaining]
  exact replyAt_of_selection_eq_none h

/-- The handler of the rule that is selected makes the reply, and no other handler has a part in it
but by replies that this one asks for. -/
theorem answer_of_selection_eq_some (hdepth : depth < e.config.depthLimit) {considered : Nat}
    {rule : Rule} {groups : Groups}
    (h : e.selection user message = some (considered, rule, groups)) :
    e.answer user depth message =
      match run (answerText user (depth + 1)) ⟨user, depth, groups⟩
        ((e.scanned user message).emit (.matched rule.name)) "" rule.handler.program with
      | (.ok reply, e') =>
        (⟨reply, String.ofList (normalize e.config.substitutions message), some rule.name,
            considered, depth, .replied⟩,
          e'.conclude user depth reply)
      | (.error error, e') =>
        (⟨"", String.ofList (normalize e.config.substitutions message), some rule.name, considered,
            depth, .handlerFailed⟩,
          (e'.emit (.handlerFailed rule.name error)).conclude user depth "") := by
  obtain ⟨remaining, hremaining⟩ := Nat.exists_eq_succ_of_ne_zero (Nat.sub_ne_zero_of_lt hdepth)
  rw [answer, hremaining, ← handled_eq_run hremaining]
  exact replyAt_of_selection_eq_some h

end Answer

end Engine

end Rejoinder
