import Mathlib.Data.List.Basic
import Mathlib.Tactic.Choose
import Rejoinder.Engine.Operation
import Rejoinder.Proofs.Engine.Prepared

/-!
# The depth of replies

Handlers may ask for replies as they like, several times and to any messages, and change the engine
in between. That a reply comes to an end all the same is a statement about the tree of these
requests, so the tree is defined without any measure that would make it finite: `Answered` relates a
message at a depth to the handlers that are run for it, in the order in which they begin, and to the
reply, and it holds only if a finite derivation says so. Each message has one such derivation
(`Answered.existsUnique`), its reply is the one that the engine gives (`Answered.eq_answer`), and
the handlers in it run at depths below the limit (`Answered.depth_of_mem`).

At the limit, a request is refused, and only the journal knows of it (`answer_of_depthLimit_le`).
A rule whose handler relays every message to the same rule again is run once at each depth below the
limit, and then refused (`Loop.answered`).
-/

set_option autoImplicit false

namespace Rejoinder

/-- A handler that is run, and what it is told. -/
structure HandlerRun where
  rule : Rule
  turn : Turn

namespace Engine

/-- The reply to a normalized message that is made of what the handler of the rule has come to. -/
def settled (user : String) (depth : Nat) (normalized : String) (place : Nat) (rule : Rule) :
    Effect → ReplyDetails × Engine
  | (.ok reply, e) =>
    (⟨reply, normalized, some rule.name, place, depth, .replied⟩, e.conclude user depth reply)
  | (.error error, e) =>
    (⟨"", normalized, some rule.name, place, depth, .handlerFailed⟩,
      (e.emit (.handlerFailed rule.name error)).conclude user depth "")

/-- What handlers get of the replies to their requests. -/
def textOf (replies : String × Engine → ReplyDetails × Engine) (message : String) (e : Engine) :
    String × Engine :=
  ((replies (message, e)).1.reply, (replies (message, e)).2)

/-- A message at a depth leads to these runs of handlers and to this reply. The requests of a
handler are those that it makes if they are replied to as the derivation says. -/
inductive Answered (user : String) :
    Nat → String → Engine → List HandlerRun → ReplyDetails × Engine → Prop
  | refused {depth : Nat} {message : String} {e : Engine} (hdepth : e.config.depthLimit ≤ depth) :
    Answered user depth message e []
      (⟨"", "", none, 0, depth, .depthExceeded⟩,
        (e.emit (.asked user message)).emit (.refused user message e.config.depthLimit))
  | unmatched {depth : Nat} {message : String} {e : Engine} (hdepth : depth < e.config.depthLimit)
    (hselection : e.selection user message = none) :
    Answered user depth message e []
      (⟨"", String.ofList (normalize e.config.substitutions message), none,
          (e.scanned user message).candidates.length, depth, .noMatch⟩,
        (e.scanned user message).conclude user depth "")
  | handled {depth : Nat} {message : String} {e : Engine} {place : Nat} {rule : Rule}
    {groups : Groups} (hdepth : depth < e.config.depthLimit)
    (hselection : e.selection user message = some (place, rule, groups))
    (runs : String × Engine → List HandlerRun)
    (replies : String × Engine → ReplyDetails × Engine)
    (hrequests : ∀ c ∈ programCalls (textOf replies) ⟨user, depth, groups⟩
        (e.entered user message rule) rule.handler.program,
      Answered user (depth + 1) c.1 c.2 (runs c) (replies c)) :
    Answered user depth message e
      (⟨rule, ⟨user, depth, groups⟩⟩ ::
        (programCalls (textOf replies) ⟨user, depth, groups⟩ (e.entered user message rule)
          rule.handler.program).flatMap runs)
      (settled user depth (String.ofList (normalize e.config.substitutions message)) place rule
        (run (textOf replies) ⟨user, depth, groups⟩ (e.entered user message rule) ""
          rule.handler.program))

section Answer

variable {user message : String} {depth : Nat} {e : Engine}

/-- Where a rule matches, the answer is made of what its handler comes to. -/
theorem answer_of_selection_eq_some_settled (hdepth : depth < e.config.depthLimit) {place : Nat}
    {rule : Rule} {groups : Groups}
    (hselection : e.selection user message = some (place, rule, groups)) :
    e.answer user depth message =
      settled user depth (String.ofList (normalize e.config.substitutions message)) place rule
        (run (answerText user (depth + 1)) ⟨user, depth, groups⟩ (e.entered user message rule) ""
          rule.handler.program) := by
  rw [answer_of_selection_eq_some hdepth hselection, entered]
  split <;> rename_i hrun <;> rw [hrun] <;> rfl

/-- At the depth limit the answer is a refusal. -/
theorem answer_eq_of_depthLimit_le (hdepth : e.config.depthLimit ≤ depth) :
    e.answer user depth message =
      (⟨"", "", none, 0, depth, .depthExceeded⟩,
        (e.emit (.asked user message)).emit (.refused user message e.config.depthLimit)) := by
  rw [answer, Nat.sub_eq_zero_of_le hdepth, replyAt_zero]

/-- A request at the depth limit or beyond it is refused, and nothing but the journal changes. -/
theorem answer_of_depthLimit_le (hdepth : e.config.depthLimit ≤ depth) :
    ∃ journal, e.answer user depth message =
      (⟨"", "", none, 0, depth, .depthExceeded⟩, { e with journal := journal }) := by
  obtain ⟨journal, hasked⟩ := exists_journal_emit (.asked user message) e
  obtain ⟨journal', hrefused⟩ :=
    exists_journal_emit (.refused user message e.config.depthLimit) (e.emit (.asked user message))
  refine ⟨journal', ?_⟩
  rw [answer_eq_of_depthLimit_le hdepth, hrefused, hasked]

/-- The settings are the same wherever the handler of a rule asks for a reply. -/
theorem config_of_mem_programCalls {rule : Rule} {turn : Turn} {c : String × Engine}
    (hc : c ∈ programCalls (answerText user (depth + 1)) turn (e.entered user message rule)
      rule.handler.program) : c.2.config = e.config := by
  have hconfig := invariant_config e.config
  refine hconfig.mem_programCalls ?_ _ ?_ _ c hc
  · intro message e' he'
    exact hconfig.replyAt_nested _ (Nat.succ_ne_zero _) message he'
  · rw [entered, config_emit, config_scanned]

end Answer

namespace Answered

variable {user message : String} {depth : Nat} {e : Engine}
  {runs runs' : List HandlerRun} {reply reply' : ReplyDetails × Engine}

/-- A derivation leads to the reply that the engine gives. -/
theorem eq_answer (h : Answered user depth message e runs reply) :
    reply = e.answer user depth message := by
  induction h with
  | refused hdepth => exact (answer_eq_of_depthLimit_le hdepth).symm
  | unmatched hdepth hselection => exact (answer_of_selection_eq_none hdepth hselection).symm
  | @handled depth message e place rule groups hdepth hselection runs replies hrequests ih =>
    have hagree : ∀ c ∈ programCalls (textOf replies) ⟨user, depth, groups⟩
        (e.entered user message rule) rule.handler.program,
        textOf replies c.1 c.2 = answerText user (depth + 1) c.1 c.2 := by
      intro c hc
      rw [textOf, answerText, ih c hc]
    rw [answer_of_selection_eq_some_settled hdepth hselection, run_congr _ _ _ hagree]

/-- The requests of a handler are those that it makes if the engine replies to them. -/
theorem programCalls_eq {turn : Turn} {e : Engine} {program : List Action}
    {runs : String × Engine → List HandlerRun} {replies : String × Engine → ReplyDetails × Engine}
    (h : ∀ c ∈ programCalls (textOf replies) turn e program,
      Answered user depth c.1 c.2 (runs c) (replies c)) :
    programCalls (textOf replies) turn e program =
      programCalls (answerText user depth) turn e program := by
  refine programCalls_congr _ _ fun c hc => ?_
  rw [textOf, answerText, (h c hc).eq_answer]

/-- A reply has one list of handler runs. -/
theorem runs_unique (h : Answered user depth message e runs reply)
    (h' : Answered user depth message e runs' reply') : runs = runs' := by
  induction h generalizing runs' reply' with
  | refused hdepth =>
    cases h' with
    | refused => rfl
    | unmatched hdepth' => omega
    | handled hdepth' => omega
  | unmatched hdepth hselection =>
    cases h' with
    | refused hdepth' => omega
    | unmatched => rfl
    | handled _ hselection' =>
      rw [hselection] at hselection'
      contradiction
  | handled hdepth hselection runs replies hrequests ih =>
    cases h' with
    | refused hdepth' => omega
    | unmatched _ hselection' =>
      rw [hselection] at hselection'
      contradiction
    | handled _ hselection' runs' replies' hrequests' =>
      rw [hselection] at hselection'
      obtain ⟨rfl, rfl, rfl⟩ := hselection'
      -- Both derivations are about the requests that are made if the engine replies to them.
      have hsame := (programCalls_eq hrequests).trans (programCalls_eq hrequests').symm
      rw [← hsame] at hrequests' ⊢
      refine congrArg _ (List.flatMap_congr fun c hc => ih c hc (hrequests' c hc))

/-- The depth limit is far enough away for a derivation. -/
theorem exists_runs (user : String) (depth : Nat) (message : String) (e : Engine) :
    ∃ runs, Answered user depth message e runs (e.answer user depth message) := by
  generalize hremaining : e.config.depthLimit - depth = remaining
  induction remaining generalizing depth message e with
  | zero =>
    have hdepth : e.config.depthLimit ≤ depth := Nat.le_of_sub_eq_zero hremaining
    rw [answer_eq_of_depthLimit_le hdepth]
    exact ⟨_, .refused hdepth⟩
  | succ remaining ih =>
    have hdepth : depth < e.config.depthLimit := by omega
    cases hselection : e.selection user message with
    | none =>
      rw [answer_of_selection_eq_none hdepth hselection]
      exact ⟨_, .unmatched hdepth hselection⟩
    | some selected =>
      obtain ⟨place, rule, groups⟩ := selected
      let replies := fun c : String × Engine => c.2.answer user (depth + 1) c.1
      -- Only the requests that are made have derivations; for any others, no runs will do.
      have hrequests : ∀ c : String × Engine, ∃ runs,
          c ∈ programCalls (textOf replies) ⟨user, depth, groups⟩ (e.entered user message rule)
              rule.handler.program →
            Answered user (depth + 1) c.1 c.2 runs (replies c) := by
        intro c
        by_cases hc : c ∈ programCalls (textOf replies) ⟨user, depth, groups⟩
            (e.entered user message rule) rule.handler.program
        · have hconfig : c.2.config = e.config := config_of_mem_programCalls hc
          obtain ⟨runs, hruns⟩ := ih (depth + 1) c.1 c.2 (by rw [hconfig]; omega)
          exact ⟨runs, fun _ => hruns⟩
        · exact ⟨[], fun hc' => absurd hc' hc⟩
      choose runs hruns using hrequests
      rw [answer_of_selection_eq_some_settled hdepth hselection]
      exact ⟨_, .handled hdepth hselection runs replies hruns⟩

/-- Each message at each depth has one derivation. -/
theorem existsUnique (user : String) (depth : Nat) (message : String) (e : Engine) :
    ∃! derived : List HandlerRun × ReplyDetails × Engine,
      Answered user depth message e derived.1 derived.2 := by
  obtain ⟨runs, hruns⟩ := exists_runs user depth message e
  refine ⟨(runs, e.answer user depth message), hruns, ?_⟩
  rintro ⟨runs', reply'⟩ h'
  exact Prod.ext (h'.runs_unique hruns) h'.eq_answer

/-- The handlers that are run see depths from that of the message up to the limit. -/
theorem depth_of_mem (h : Answered user depth message e runs reply) :
    ∀ r ∈ runs, depth ≤ r.turn.depth ∧ r.turn.depth < e.config.depthLimit := by
  induction h with
  | refused => simp
  | unmatched => simp
  | @handled depth message e place rule groups hdepth hselection runs replies hrequests ih =>
    refine List.forall_mem_cons.mpr ⟨⟨Nat.le_refl _, hdepth⟩, ?_⟩
    intro r hr
    obtain ⟨c, hc, hr⟩ := List.mem_flatMap.mp hr
    obtain ⟨hle, hlt⟩ := ih c hc r hr
    rw [programCalls_eq hrequests] at hc
    rw [config_of_mem_programCalls hc] at hlt
    omega

/-- A handler that relays a message adds one run to those for the message, and its reply is that to
the message. -/
theorem relay {place : Nat} {rule : Rule} {groups : Groups} {next : String}
    (hdepth : depth < e.config.depthLimit)
    (hselection : e.selection user message = some (place, rule, groups))
    (hrelays : Relays ⟨user, depth, groups⟩ (e.entered user message rule) rule.handler.program next)
    (h : Answered user (depth + 1) next (e.entered user message rule) runs reply) :
    Answered user depth message e (⟨rule, ⟨user, depth, groups⟩⟩ :: runs)
      (settled user depth (String.ofList (normalize e.config.substitutions message)) place rule
        (.ok reply.1.reply, reply.2)) := by
  obtain ⟨hrun, hcalls⟩ := hrelays (textOf fun _ => reply)
  have hhandled := Answered.handled hdepth hselection (fun _ => runs) (fun _ => reply) (by
    rw [hcalls]
    exact List.forall_mem_singleton.mpr h)
  rwa [hcalls, hrun, List.flatMap_singleton] at hhandled

end Answered

/-! ## Loops -/

/-- A rule that is selected over and over: each of these messages selects it, and its handler relays
the next message, whatever has been written to the journal. -/
structure Loop (user : String) (rule : Rule) (message : Nat → String) (groups : Nat → Groups)
    (e : Engine) : Prop where
  selects : ∀ depth < e.config.depthLimit, ∃ place,
    e.selection user (message depth) = some (place, rule, groups depth)
  relays : ∀ depth < e.config.depthLimit, ∀ e',
    e'.clearEvents = (e.prepared user).clearEvents →
      Relays ⟨user, depth, groups depth⟩ e' rule.handler.program (message (depth + 1))

namespace Loop

variable {user : String} {rule : Rule} {message : Nat → String} {groups : Nat → Groups}
  {e : Engine}

/-- From any depth on, as long as nothing is changed, a loop is gone through once at each depth
below the limit. -/
theorem exists_answered (h : Loop user rule message groups e) (depth : Nat) {e' : Engine}
    (he' : Unchanged user e e') :
    ∃ reply, Answered user depth (message depth) e'
      ((List.range' depth (e.config.depthLimit - depth)).map fun d =>
        ⟨rule, ⟨user, d, groups d⟩⟩) reply ∧ reply.1.reply = "" := by
  generalize hremaining : e.config.depthLimit - depth = remaining
  induction remaining generalizing depth e' with
  | zero => exact ⟨_, .refused (by rw [he'.config]; omega), rfl⟩
  | succ remaining ih =>
    have hdepth : depth < e.config.depthLimit := by omega
    have hdepth' : depth < e'.config.depthLimit := he'.config ▸ hdepth
    obtain ⟨place, hselection⟩ := h.selects depth hdepth
    have hselection' := (he'.selection (message depth)).trans hselection
    have hrelays := h.relays depth hdepth _ (he'.clearEvents_entered (message depth) rule)
    obtain ⟨reply, hreply, hempty⟩ :=
      ih (depth + 1) (he'.entered (message depth) rule) (by omega)
    rw [List.range'_succ, List.map_cons]
    exact ⟨_, Answered.relay hdepth' hselection' hrelays hreply, hempty⟩

/-- A loop is gone through once at each depth below the limit, and its reply is empty. -/
theorem answered (h : Loop user rule message groups e) :
    Answered user 0 (message 0) e
        ((List.range e.config.depthLimit).map fun d => ⟨rule, ⟨user, d, groups d⟩⟩)
        (e.replyVerbose user (message 0)) ∧
      (e.replyVerbose user (message 0)).1.reply = "" := by
  obtain ⟨reply, hreply, hempty⟩ := h.exists_answered 0 (.inl rfl)
  have hanswer : reply = e.replyVerbose user (message 0) := hreply.eq_answer
  rw [Nat.sub_zero, ← List.range_eq_range', hanswer] at hreply
  rw [hanswer] at hempty
  exact ⟨hreply, hempty⟩

end Loop

/-- Recursion is bounded, and refusal is without effect, in every engine and whatever the handlers
are. Each message at each depth has one finite derivation, which leads to the reply of the engine,
and the handlers in it see depths below the limit. At the limit and beyond it, a request gets the
empty reply and changes nothing but the journal, so that at the limit zero no reply makes a user
known. And if a rule relays its messages to itself, the reply runs its handler once at each depth
below the limit, and is empty. -/
theorem answered_within_depthLimit (user : String) (e : Engine) :
    (∀ depth message, ∃! derived : List HandlerRun × ReplyDetails × Engine,
        Answered user depth message e derived.1 derived.2) ∧
      (∀ message, ∃ runs, Answered user 0 message e runs (e.replyVerbose user message)) ∧
      (∀ depth message runs reply, Answered user depth message e runs reply →
        reply = e.answer user depth message ∧
          ∀ r ∈ runs, depth ≤ r.turn.depth ∧ r.turn.depth < e.config.depthLimit) ∧
      (∀ depth message, e.config.depthLimit ≤ depth → ∃ journal,
        e.answer user depth message =
          (⟨"", "", none, 0, depth, .depthExceeded⟩, { e with journal := journal })) ∧
      (e.config.depthLimit = 0 → ∀ message, (e.reply user message).2.users = e.users) ∧
      ∀ rule message groups, Loop user rule message groups e →
        Answered user 0 (message 0) e
            ((List.range e.config.depthLimit).map fun d => ⟨rule, ⟨user, d, groups d⟩⟩)
            (e.replyVerbose user (message 0)) ∧
          (e.reply user (message 0)).1 = "" := by
  refine ⟨?_, ?_, ?_, ?_, ?_, ?_⟩
  · exact fun depth message => Answered.existsUnique user depth message e
  · exact fun message => Answered.exists_runs user 0 message e
  · exact fun depth message runs reply h => ⟨h.eq_answer, h.depth_of_mem⟩
  · exact fun depth message hdepth => answer_of_depthLimit_le hdepth
  · intro hzero message
    have hrefused : ∃ journal, e.answer user 0 message = (_, { e with journal := journal }) :=
      answer_of_depthLimit_le (Nat.le_of_eq hzero)
    obtain ⟨journal, h⟩ := hrefused
    exact congrArg (fun reply => reply.2.users) h
  · exact fun rule message groups hloop => hloop.answered

/-- The text to which a program asks for the reply, if it does nothing else and the text is
fixed. -/
def fixedRequest? : List Action → Option String
  | [.reply [.literal text]] => some text
  | _ => none

/-- A program that asks for the reply to one text relays it. -/
theorem relays_of_fixedRequest? {turn : Turn} {e : Engine} {program : List Action} {text : String}
    (h : fixedRequest? program = some text) : Relays turn e program text := by
  unfold fixedRequest? at h
  split at h
  · obtain rfl := Option.some.inj h
    exact relays_reply (fun _ => rfl) (fun _ => rfl)
  · contradiction

end Engine

/-- A source with one rule, which asks for the reply to the message that it is for. -/
def Source.echo : Source :=
  ⟨"echo", [.ok ⟨"echo", "", .assign [],
    [.rule ⟨"again", "again", "", 0, ⟨.shared "again", [.reply [.literal "again"]]⟩⟩]⟩]⟩

namespace Engine

/-- Under a limit of three, a rule that asks for the reply to its own message is run three times. -/
theorem answered_within_depthLimit_echo :
    let e := ((withGrammar (Config.default.withDepthLimit 3) .bundled).load .echo).2
    ∃ rule groups, rule.name = "echo.again" ∧
      Answered "ann" 0 "again" e
          [⟨rule, ⟨"ann", 0, groups⟩⟩, ⟨rule, ⟨"ann", 1, groups⟩⟩, ⟨rule, ⟨"ann", 2, groups⟩⟩]
          (e.replyVerbose "ann" "again") ∧
        (e.reply "ann" "again").1 = "" := by
  intro e
  have hlimit : e.config.depthLimit = 3 := by decide +kernel
  have hrequest : (e.selection "ann" "again").map
      (fun s => (s.2.1.name, fixedRequest? s.2.1.handler.program)) =
        some ("echo.again", some "again") := by decide +kernel
  obtain ⟨⟨place, rule, groups⟩, hselection, hrule⟩ := Option.map_eq_some_iff.mp hrequest
  obtain ⟨hname, hprogram⟩ := Prod.mk.inj hrule
  have hloop : Loop "ann" rule (fun _ => "again") (fun _ => groups) e := by
    refine ⟨?_, ?_⟩
    · exact fun _ _ => ⟨place, hselection⟩
    · exact fun _ _ _ _ => relays_of_fixedRequest? hprogram
  have hruns := (answered_within_depthLimit "ann" e).2.2.2.2.2 rule _ _ hloop
  rw [hlimit] at hruns
  exact ⟨rule, groups, hname, hruns⟩

end Engine

end Rejoinder
