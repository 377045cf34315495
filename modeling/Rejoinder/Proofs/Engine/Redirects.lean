import Rejoinder.Proofs.Engine.Depth
import Rejoinder.Proofs.Engine.Programs
import Rejoinder.Proofs.Script.Faults

/-!
# Redirects

The rules of a directory do one of two things: they reply with a filled template, or they redirect
to the message that a filled template makes (`IsResponse`). So the reply to a message follows a
chain of messages, each of which the one before it is redirected to (`chain`), and none of the
handlers changes anything on the way. Where the chain ends, if it ends below the depth limit, the
reply is decided (`ChainEnds`); if it goes on to the limit, the reply is empty. In this way the
chain alone, which is about rules and templates only, gives the reply to a message, the number of
handlers that are run for it, and what the engine knows afterwards (`reply_of_chainEnds`).
-/

set_option autoImplicit false

namespace Rejoinder

/-! ## Where the rules come from -/

/-- The programs of the rules of a directory: a reply, or a redirect. -/
def IsResponse (program : List Action) : Prop :=
  ∃ template, program = [.template template] ∨ program = [.reply [.template template]]

/-- Where a partial function has images for a list, each of them is the image of a member. -/
theorem exists_of_mapM_eq_ok {ε α β : Type} {f : α → Except ε β} {as : List α} {bs : List β}
    (h : as.mapM f = .ok bs) : ∀ b ∈ bs, ∃ a ∈ as, f a = .ok b := by
  induction as generalizing bs with
  | nil =>
    obtain rfl : [] = bs := Except.ok.inj h
    simp
  | cons a as ih =>
    rw [List.mapM_cons] at h
    obtain ⟨b, hb, h⟩ := bind_eq_ok_iff.mp h
    obtain ⟨bs', hbs', h⟩ := bind_eq_ok_iff.mp h
    obtain rfl : b :: bs' = bs := Except.ok.inj h
    refine List.forall_mem_cons.mpr ⟨⟨a, List.mem_cons_self, hb⟩, fun b' hb' => ?_⟩
    obtain ⟨a', ha', hfa'⟩ := ih hbs' b' hb'
    exact ⟨a', List.mem_cons_of_mem _ ha', hfa'⟩

/-- The program of a rule in a file replies or redirects. -/
theorem isResponse_of_program_eq_ok {r : FileRule} {program : List Action}
    (h : ScriptFile.program r = .ok program) : IsResponse program := by
  unfold ScriptFile.program at h
  split at h
  · exact ⟨_, .inl (Except.ok.inj h).symm⟩
  · exact ⟨_, .inr (Except.ok.inj h).symm⟩
  · contradiction
  · contradiction

/-- The rules of a script from a file reply or redirect. -/
theorem isResponse_of_toScript {path name : String} {place : Nat} {f : ScriptFile} {script : Script}
    (h : f.toScript path name place = .ok script) :
    ∀ spec, .rule spec ∈ script.declarations → IsResponse spec.handler.program := by
  obtain ⟨rules, hrules, h⟩ := bind_eq_ok_iff.mp h
  obtain rfl := Except.ok.inj h
  intro spec hspec
  have hmem : Declaration.rule spec ∈ rules := by simpa using hspec
  obtain ⟨r, _, hr⟩ := exists_of_mapM_eq_ok hrules _ hmem
  unfold ScriptFile.declaration at hr
  split at hr
  · contradiction
  · rename_i program hprogram
    obtain rfl := Declaration.rule.inj (Except.ok.inj hr)
    exact isResponse_of_program_eq_ok hprogram

/-- The rules of a directory reply or redirect, whatever its files hold. -/
theorem hasPrograms_directory (path : String) (listing : Directory.Listing) :
    (Directory.source path listing).HasPrograms IsResponse := by
  intro script hscript
  obtain ⟨file, _, place, hfile⟩ := Directory.exists_load_of_mem_scripts hscript
  unfold Directory.load at hfile
  split at hfile
  · contradiction
  · split at hfile
    · contradiction
    · exact isResponse_of_toScript hfile

namespace Engine

/-- All rules of an engine come from a directory: a load of it has been the last load. -/
def FromDirectory (e : Engine) : Prop :=
  ∃ before path listing operations, (∀ source, Operation.load source ∉ operations) ∧
    e = ((load (Directory.source path listing) before).2.performAll operations).2

/-- The rules of an engine that come from a directory reply or redirect. -/
theorem FromDirectory.hasPrograms {e : Engine} (h : FromDirectory e) :
    HasPrograms IsResponse e := by
  obtain ⟨before, path, listing, operations, hoperations, rfl⟩ := h
  exact (hasPrograms_load (hasPrograms_directory path listing) before).performAll operations
    fun source hsource => absurd hsource (hoperations source)

/-! ## Chains of redirects -/

/-- The message to which a message is redirected, if it is. -/
def nextMessage (user : String) (e : Engine) (message : String) : Option String :=
  match e.selection user message with
  | some (_, rule, groups) =>
    match rule.handler.program with
    | [.reply [.template template]] =>
      (Template.expand groups template.toList).toOption.map String.ofList
    | _ => none
  | none => none

/-- The messages to which a message leads, one redirect after the other. -/
def chain (user : String) (e : Engine) (message : String) : Nat → Option String
  | 0 => some message
  | k + 1 => (chain user e message k).bind (nextMessage user e)

/-- How the chain from a message ends, before it comes to a limit or by coming there: the number of
handlers that are run on the way, and the text at the end. -/
inductive ChainEnds (user : String) (e : Engine) (message : String) (limit : Nat) :
    Nat → String → Prop
  /-- The limit is reached. -/
  | reached {last : String} (hlast : chain user e message limit = some last) :
    ChainEnds user e message limit limit ""
  /-- A message selects no rule. -/
  | unmatched {k : Nat} {last : String} (hk : k < limit)
    (hlast : chain user e message k = some last)
    (hselection : e.selection user last = none) : ChainEnds user e message limit k ""
  /-- A message selects a rule that replies. -/
  | replied {k : Nat} {last : String} {place : Nat} {rule : Rule} {groups : Groups}
    {template : String} {text : Text} (hk : k < limit) (hlast : chain user e message k = some last)
    (hselection : e.selection user last = some (place, rule, groups))
    (hprogram : rule.handler.program = [.template template])
    (hexpand : Template.expand groups template.toList = .ok text) :
    ChainEnds user e message limit (k + 1) (String.ofList text)
  /-- A message selects a rule, and its template cannot be filled. -/
  | failed {k : Nat} {last : String} {place : Nat} {rule : Rule} {groups : Groups}
    {template : String} {error : HandlerError} (hk : k < limit)
    (hlast : chain user e message k = some last)
    (hselection : e.selection user last = some (place, rule, groups))
    (hprogram : rule.handler.program = [.template template] ∨
      rule.handler.program = [.reply [.template template]])
    (hexpand : Template.expand groups template.toList = .error error) :
    ChainEnds user e message limit (k + 1) ""

section Chain

variable {user : String} {e : Engine}

/-- A chain may also be taken apart at its first message. -/
theorem chain_succ (message : String) (k : Nat) :
    chain user e message (k + 1) = (nextMessage user e message).bind fun m => chain user e m k := by
  induction k with
  | zero =>
    rw [chain, chain, Option.bind_some]
    cases nextMessage user e message <;> rfl
  | succ k ih =>
    rw [chain, ih, Option.bind_assoc]
    rfl

/-- A chain goes on up to the limit, or it ends before. -/
theorem exists_chain_eq_some (message : String) (limit : Nat) :
    (∃ last, chain user e message limit = some last) ∨
      ∃ k < limit, ∃ last, chain user e message k = some last ∧ nextMessage user e last = none := by
  induction limit with
  | zero => exact .inl ⟨message, rfl⟩
  | succ limit ih =>
    rcases ih with ⟨last, hlast⟩ | ⟨k, hk, hend⟩
    · cases hnext : nextMessage user e last with
      | none => exact .inr ⟨limit, Nat.lt_succ_self limit, last, hlast, hnext⟩
      | some next =>
        refine .inl ⟨next, ?_⟩
        rw [chain, hlast, Option.bind_some, hnext]
    · exact .inr ⟨k, Nat.lt_succ_of_lt hk, hend⟩

/-- If all rules reply or redirect, every chain ends in one of the ways, whatever the limit is. -/
theorem exists_chainEnds (h : HasPrograms IsResponse e) (message : String) (limit : Nat) :
    ∃ n text, ChainEnds user e message limit n text := by
  rcases exists_chain_eq_some message limit with ⟨last, hlast⟩ | ⟨k, hk, last, hlast, hend⟩
  · exact ⟨_, _, .reached hlast⟩
  · cases hselection : e.selection user last with
    | none => exact ⟨_, _, .unmatched hk hlast hselection⟩
    | some selected =>
      obtain ⟨place, rule, groups⟩ := selected
      obtain ⟨template, hprogram⟩ := h.of_selection_eq_some hselection
      cases hexpand : Template.expand groups template.toList with
      | error error => exact ⟨_, _, .failed hk hlast hselection hprogram hexpand⟩
      | ok text =>
        rcases hprogram with hprogram | hprogram
        · exact ⟨_, _, .replied hk hlast hselection hprogram hexpand⟩
        · simp [nextMessage, hselection, hprogram, hexpand, Except.toOption] at hend

end Chain

/-! ## Replies along a chain -/

section Conclude

variable {user reply : String} {depth : Nat} {e e' : Engine}

/-- Remembering a reply does the same in engines that are the same but for their events. -/
theorem clearEvents_conclude_congr (h : e.clearEvents = e'.clearEvents) :
    (e.conclude user depth reply).clearEvents = (e'.conclude user depth reply).clearEvents := by
  obtain ⟨journal, rfl⟩ := clearEvents_eq_iff.mp h
  unfold conclude
  split
  · rw [clearEvents_emit, clearEvents_emit]
    rfl
  · split <;> rfl

/-- An empty reply changes nothing if events do not count. -/
@[simp] theorem clearEvents_conclude_empty :
    (e.conclude user depth "").clearEvents = e.clearEvents := by
  simp [conclude]

/-- A reply inside another one is not remembered. -/
theorem clearEvents_conclude_of_ne_zero (hdepth : depth ≠ 0) :
    (e.conclude user depth reply).clearEvents = e.clearEvents := by
  unfold conclude
  rw [if_neg hdepth]
  split
  · rw [clearEvents_emit]
  · rfl

end Conclude

section Template

variable {nested : String → Engine → String × Engine} {turn : Turn} {e : Engine} {template : String}

/-- A reply with a template fills the template and does nothing else. -/
theorem run_template : run nested turn e "" [.template template] =
    ((Template.expand turn.groups template.toList).map String.ofList, e) := by
  cases h : Template.expand turn.groups template.toList <;>
    simp [run, Rejoinder.perform, h, Except.map]

/-- A reply with a template asks for no other reply. -/
theorem programCalls_template : programCalls nested turn e [.template template] = [] := by
  rw [programCalls, actionCalls, List.nil_append]
  · split <;> rfl
  all_goals simp

/-- A redirect whose template can be filled relays the filled template. -/
theorem relays_redirect {text : Text}
    (h : Template.expand turn.groups template.toList = .ok text) :
    Relays turn e [.reply [.template template]] (String.ofList text) := by
  refine relays_reply (fun nested => ?_) (fun nested => programCalls_template)
  rw [run_template, h]
  rfl

/-- A redirect whose template cannot be filled fails without a request. -/
theorem run_redirect_of_error {error : HandlerError}
    (h : Template.expand turn.groups template.toList = .error error) :
    run nested turn e "" [.reply [.template template]] = (.error error, e) ∧
      programCalls nested turn e [.reply [.template template]] = [] := by
  constructor
  · simp only [run, Rejoinder.perform, h, Except.map]
  · simp only [programCalls, actionCalls, run, Rejoinder.perform, h, Except.map, List.append_nil]

end Template

/-- At a depth, and as long as nothing is changed, a message leads to that many runs of handlers and
to this text. What is changed by it is that the engine is prepared, below the limit, and that the
text is remembered, at the depth zero. -/
def Yields (user : String) (e : Engine) (depth : Nat) (message : String) (n : Nat)
    (text : String) : Prop :=
  ∀ e', Unchanged user e e' → ∃ runs reply, Answered user depth message e' runs reply ∧
    runs.length = n ∧ reply.1.reply = text ∧
    reply.2.clearEvents =
      ((if depth < e.config.depthLimit then e.prepared user else e').conclude user depth
        text).clearEvents

section Yields

variable {user : String} {e : Engine} {depth : Nat} {message : String}

/-- At the depth limit a message yields the empty text, and no handler is run. -/
theorem yields_of_depthLimit_le (hdepth : e.config.depthLimit ≤ depth) :
    Yields user e depth message 0 "" := by
  intro e' he'
  refine ⟨[], _, .refused (he'.config ▸ hdepth), rfl, rfl, ?_⟩
  rw [if_neg (Nat.not_lt_of_le hdepth), clearEvents_conclude_empty, clearEvents_emit,
    clearEvents_emit]

/-- A message without a rule yields the empty text, and no handler is run. -/
theorem yields_of_selection_eq_none (hdepth : depth < e.config.depthLimit)
    (hselection : e.selection user message = none) : Yields user e depth message 0 "" := by
  intro e' he'
  refine ⟨[], _, .unmatched (he'.config ▸ hdepth) ((he'.selection message).trans hselection), rfl,
    rfl, ?_⟩
  rw [if_pos hdepth]
  exact clearEvents_conclude_congr (he'.clearEvents_scanned message)

/-- A handler that asks for nothing and changes nothing decides the reply. -/
theorem yields_of_run (hdepth : depth < e.config.depthLimit) {place : Nat} {rule : Rule}
    {groups : Groups} (hselection : e.selection user message = some (place, rule, groups))
    {result : Except HandlerError String}
    (hrun : ∀ nested e', run nested ⟨user, depth, groups⟩ e' "" rule.handler.program = (result, e'))
    (hcalls : ∀ nested e',
      programCalls nested ⟨user, depth, groups⟩ e' rule.handler.program = []) :
    Yields user e depth message 1 (result.toOption.getD "") := by
  intro e' he'
  have hentered := he'.clearEvents_entered message rule
  -- No reply is asked for, so any replies to requests will do.
  have hhandled := Answered.handled (he'.config ▸ hdepth)
    ((he'.selection message).trans hselection) (fun _ => [])
    (fun c => (⟨"", "", none, 0, depth, .noMatch⟩, c.2)) (by simp [hcalls])
  rw [hcalls, hrun] at hhandled
  refine ⟨_, _, hhandled, rfl, ?_, ?_⟩
  · cases result <;> rfl
  · rw [if_pos hdepth]
    cases result with
    | error error =>
      refine clearEvents_conclude_congr ?_
      rw [clearEvents_emit, hentered]
    | ok text => exact clearEvents_conclude_congr hentered

/-- A redirect leads to what the message yields to which it redirects. -/
theorem Yields.of_nextMessage (hdepth : depth < e.config.depthLimit) {next text : String} {n : Nat}
    (hnext : nextMessage user e message = some next) (h : Yields user e (depth + 1) next n text) :
    Yields user e depth message (n + 1) text := by
  unfold nextMessage at hnext
  split at hnext
  · rename_i place rule groups hselection
    split at hnext
    · rename_i template hprogram
      obtain ⟨filled, hexpand, rfl⟩ := Option.map_eq_some_iff.mp hnext
      intro e' he'
      have hentered := he'.clearEvents_entered message rule
      have hfilled : Template.expand groups template.toList = .ok filled := by
        cases hcase : Template.expand groups template.toList with
        | error error => simp [hcase, Except.toOption] at hexpand
        | ok text => simpa [hcase, Except.toOption] using hexpand
      have hrelays : Relays ⟨user, depth, groups⟩ (e'.entered user message rule)
          rule.handler.program (String.ofList filled) := by
        rw [hprogram]
        exact relays_redirect hfilled
      obtain ⟨runs, reply, hreply, hlength, htext, hafter⟩ := h _ (he'.entered message rule)
      have hrelayed := Answered.relay (he'.config ▸ hdepth)
        ((he'.selection message).trans hselection) hrelays hreply
      refine ⟨_, _, hrelayed, by rw [List.length_cons, hlength], htext, ?_⟩
      -- Inside the reply nothing is remembered, and what is prepared stays so.
      have hprepared : reply.2.clearEvents = (e.prepared user).clearEvents := by
        rw [hafter, clearEvents_conclude_of_ne_zero (Nat.succ_ne_zero depth)]
        split
        · rfl
        · exact hentered
      rw [if_pos hdepth, htext]
      exact clearEvents_conclude_congr hprepared
    · contradiction
  · contradiction

/-- What the message at an index of a chain yields at that depth, the first message yields. -/
theorem Yields.of_chain {k n : Nat} {last text : String}
    (hlast : chain user e message k = some last) (hk : depth + k ≤ e.config.depthLimit)
    (h : Yields user e (depth + k) last n text) : Yields user e depth message (n + k) text := by
  induction k generalizing depth message with
  | zero =>
    obtain rfl : message = last := Option.some.inj hlast
    exact h
  | succ k ih =>
    rw [chain_succ, Option.bind_eq_some_iff] at hlast
    obtain ⟨next, hnext, hlast⟩ := hlast
    rw [← Nat.add_assoc, Nat.add_right_comm] at h hk
    have hrest : Yields user e (depth + 1) next (n + k) text := ih hlast hk h
    exact Yields.of_nextMessage (by omega) hnext hrest

/-- The end of a chain decides the reply to the message that it begins with. -/
theorem yields_of_chainEnds {n : Nat} {text : String}
    (h : ChainEnds user e message e.config.depthLimit n text) :
    Yields user e 0 message n text := by
  -- Every redirect adds one run, so what is left to look at is the last message of the chain.
  have hfirst : ∀ {k n : Nat} {last text : String}, chain user e message k = some last →
      k ≤ e.config.depthLimit → Yields user e k last n text →
        Yields user e 0 message (n + k) text := by
    intro k n last text hlast hk hend
    rw [← Nat.zero_add k] at hk hend
    exact hend.of_chain hlast hk
  cases h with
  | @reached last hlast =>
    have hend : Yields user e e.config.depthLimit last 0 "" :=
      yields_of_depthLimit_le (Nat.le_refl _)
    rw [← Nat.zero_add e.config.depthLimit]
    exact hfirst hlast (Nat.le_refl _) hend
  | unmatched hk hlast hselection =>
    rw [← Nat.zero_add n]
    exact hfirst hlast (Nat.le_of_lt hk) (yields_of_selection_eq_none hk hselection)
  | @replied k last place rule groups template text hk hlast hselection hprogram hexpand =>
    have hend : Yields user e k last 1
        ((.ok (String.ofList text) : Except HandlerError String).toOption.getD "") := by
      refine yields_of_run hk hselection ?_ ?_ <;> intro nested e' <;> rw [hprogram]
      · rw [run_template, hexpand]
        rfl
      · exact programCalls_template
    rw [Nat.add_comm]
    exact hfirst hlast (Nat.le_of_lt hk) hend
  | @failed k last place rule groups template error hk hlast hselection hprogram hexpand =>
    have hend : Yields user e k last 1
        ((.error error : Except HandlerError String).toOption.getD "") := by
      refine yields_of_run hk hselection ?_ ?_ <;> intro nested e' <;>
        rcases hprogram with hprogram | hprogram <;> rw [hprogram]
      · rw [run_template, hexpand]
        rfl
      · exact (run_redirect_of_error hexpand).1
      · exact programCalls_template
      · exact (run_redirect_of_error hexpand).2
    rw [Nat.add_comm]
    exact hfirst hlast (Nat.le_of_lt hk) hend

end Yields

/-- No more handlers are run than the limit allows. -/
theorem ChainEnds.le {user : String} {e : Engine} {message : String} {limit n : Nat} {text : String}
    (h : ChainEnds user e message limit n text) : n ≤ limit := by
  cases h <;> omega

/-! ## What is known afterwards -/

section Afterwards

variable {user text : String} {e e' : Engine}

/-- What a reply that changes nothing on its way leaves behind: the user has been met, and the text
is remembered if it is not empty. -/
theorem frame_of_conclude_prepared
    (h : e'.clearEvents = ((e.prepared user).conclude user 0 text).clearEvents) :
    e'.botvars = e.botvars ∧ (∀ other, other ≠ user → e'.users.get? other = e.users.get? other) ∧
      e'.users.get? user = some
        { e.met user with
          previous :=
            if text = "" then e.previousOf user
            else some (normalize e.config.substitutions text) } := by
  obtain ⟨journal, hprepared⟩ := exists_journal_prepared user e
  have hprevious : (e.met user).previous = e.previousOf user := by
    rw [← previous_user, met]
    split <;> rfl
  by_cases hempty : text = ""
  · subst hempty
    rw [clearEvents_conclude_empty, hprepared] at h
    obtain ⟨journal', rfl⟩ := clearEvents_eq_iff.mp h
    refine ⟨rfl, fun other hother => ?_, ?_⟩
    · exact Table.get?_insert.trans (if_neg hother)
    · refine Table.get?_insert.trans ?_
      rw [if_pos rfl, if_pos rfl, ← hprevious]
  · have hconclude : (e.prepared user).conclude user 0 text =
        (e.prepared user).setUser user { e.met user with
          previous := some (normalize e.config.substitutions text) } := by
      have huser : (e.prepared user).user user = e.met user := by
        rw [hprepared, Engine.user, Table.get?_insert, if_pos rfl]
        rfl
      rw [conclude, if_neg (by simpa using hempty), if_pos rfl, huser, hprepared]
    rw [hconclude, hprepared] at h
    obtain ⟨journal', rfl⟩ := clearEvents_eq_iff.mp h
    refine ⟨rfl, fun other hother => ?_, ?_⟩
    · refine Table.get?_insert.trans ?_
      rw [if_neg hother]
      exact Table.get?_insert.trans (if_neg hother)
    · refine Table.get?_insert.trans ?_
      rw [if_pos rfl, if_neg hempty]

end Afterwards

/-- Where all rules come from a directory, the chain of redirects from a message decides the reply.
Every chain ends, by a reply, by a message that selects no rule, by a template that cannot be
filled, or by reaching the depth limit. The reply is the text at its end, and as many handlers are
run for it as there are rules on the way, at most one for each depth below the limit. No bot
variable changes and nothing about another user. Of the user, the topic changes if it does not
exist, and the last reply if there is a new one; at the limit zero, nothing changes at all. -/
theorem reply_of_chainEnds {e : Engine} (h : FromDirectory e) (user message : String) :
    let after := (e.reply user message).2
    (∃ n text, ChainEnds user e message e.config.depthLimit n text) ∧
      ∀ n text, ChainEnds user e message e.config.depthLimit n text →
        (e.reply user message).1 = text ∧ n ≤ e.config.depthLimit ∧
        (∃ runs, runs.length = n ∧
          Answered user 0 message e runs (e.replyVerbose user message)) ∧
        after.botvars = e.botvars ∧
        (∀ other, other ≠ user → after.users.get? other = e.users.get? other) ∧
        after.users.get? user =
          if e.config.depthLimit = 0 then e.users.get? user
          else some
            { e.met user with
              previous :=
                if text = "" then e.previousOf user
                else some (normalize e.config.substitutions text) } := by
  intro after
  refine ⟨exists_chainEnds h.hasPrograms message _, fun n text hends => ?_⟩
  obtain ⟨runs, reply, hreply, hlength, htext, hafter⟩ :=
    yields_of_chainEnds hends e (.inl rfl)
  obtain rfl : reply = e.replyVerbose user message := hreply.eq_answer
  refine ⟨htext, hends.le, ⟨runs, hlength, hreply⟩, ?_⟩
  by_cases hlimit : e.config.depthLimit = 0
  · have hempty : text = "" := by
      cases hends with
      | reached => rfl
      | unmatched => rfl
      | replied hk => omega
      | failed => rfl
    rw [if_neg (by omega), hempty, clearEvents_conclude_empty] at hafter
    obtain ⟨journal, hsame⟩ := clearEvents_eq_iff.mp hafter
    have hsame : after = { e with journal := journal } := hsame
    rw [if_pos hlimit, hsame]
    exact ⟨rfl, fun _ _ => rfl, rfl⟩
  · rw [if_pos (Nat.pos_of_ne_zero hlimit)] at hafter
    rw [if_neg hlimit]
    exact frame_of_conclude_prepared hafter

/-- A directory of one file with one rule, which redirects to what follows its first word. -/
def sayDirectory : List (String × DirectoryEntry) :=
  [("say.json", .file (some
    "\x7b\"rules\": [\x7b\"pattern\": \"say *\", \"redirect\": \"\x7b0\x7d\"\x7d]\x7d"))]

/-- After two redirects there is no rule left, so the reply is empty. -/
theorem reply_of_chainEnds_say :
    let e := (load (Directory.source "scripts" (.listed sayDirectory))
      (withGrammar .default .bundled)).2
    FromDirectory e ∧ chain "ann" e "say say hi" 2 = some "hi" ∧
      (e.reply "ann" "say say hi").1 = "" ∧
      ∃ runs, runs.length = 2 ∧
        Answered "ann" 0 "say say hi" e runs (e.replyVerbose "ann" "say say hi") := by
  intro e
  have hdirectory : FromDirectory e :=
    ⟨withGrammar .default .bundled, "scripts", .listed sayDirectory, [], nofun, rfl⟩
  have hchain : chain "ann" e "say say hi" 2 = some "hi" := by decide +kernel
  have hnone : (e.selection "ann" "hi").isNone = true := by decide +kernel
  have hlimit : 2 < e.config.depthLimit := by decide +kernel
  have hends : ChainEnds "ann" e "say say hi" e.config.depthLimit 2 "" :=
    .unmatched hlimit hchain (Option.isNone_iff_eq_none.mp hnone)
  obtain ⟨hreply, _, hruns, _⟩ :=
    (reply_of_chainEnds hdirectory "ann" "say say hi").2 2 "" hends
  exact ⟨hdirectory, hchain, hreply, hruns⟩

end Engine

end Rejoinder
