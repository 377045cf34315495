import Rejoinder.Engine.Basic
import Rejoinder.Json.Writer

/-!
# Replies

A reply to a message is made by the handler of the rule that matches: of the rules of the default
topic, in the order of their ranks, the first one that matches the normalized message and the last
reply. If that handler fails, no other rule is tried, and the reply is empty.

A handler may ask for the reply to another message. Such a reply is one level deeper than the one
the handler is working on, and at the depth limit it is refused. The levels that are left are what
the recursion runs on.
-/

set_option autoImplicit false

namespace Rejoinder

/-- How a reply came about. -/
inductive Outcome
  /-- The handler of a rule made the reply, which may still be empty. -/
  | replied
  /-- No rule matched. -/
  | noMatch
  /-- The handler of the matching rule failed. -/
  | handlerFailed
  /-- The depth limit was reached. -/
  | depthExceeded
deriving DecidableEq, Repr

/-- A reply and how it came about. -/
structure ReplyDetails where
  reply : String
  /-- The normalized message; empty if the message was not looked at. -/
  normalized : String
  /-- The name of the rule that matched. -/
  rule : Option String
  /-- The number of rules that were tried. -/
  considered : Nat
  depth : Nat
  outcome : Outcome
deriving DecidableEq, Repr

/-- The result of an action or a program: a piece of text or an error, and the engine with the
effects that took place. -/
abbrev Effect := Except HandlerError String × Engine

/-- The text of a variable: the value of a string, and the compact text of any other value. -/
def variableText (fallback : String) : Option Json → String
  | none => fallback
  | some (.string s) => s
  | some value => value.compact

/-- All groups with their numbers, in ascending order. -/
def groupsText (groups : Groups) : String :=
  ";".intercalate (groups.map fun g => toString g.1 ++ "=" ++ g.2)

/-- One more than the natural number that a variable holds; what holds none counts as zero. -/
def successor (value : Option Json) : Json :=
  .integer (Int.ofNat ((value.bind Json.natural?).getD 0 + 1))

/-- What a handler sees of an engine. -/
def Engine.sight (turn : Turn) (e : Engine) : Sight :=
  ⟨turn, (e.uservars? turn.user).getD .empty, e.botvars⟩

section Run

/- `nested` is the reply, one level deeper, to another message of the same user. -/
variable (nested : String → Engine → String × Engine) (turn : Turn)

mutual

/-- The text that an action adds to the reply. -/
def perform (e : Engine) : Action → Effect
  | .literal text => (.ok text, e)
  | .group number =>
    match turn.groups.get? number with
    | some text => (.ok text, e)
    | none => (.error (.missingGroup number), e)
  | .groupOr number fallback => (.ok ((turn.groups.get? number).getD fallback), e)
  | .groups => (.ok (groupsText turn.groups), e)
  | .template source => ((Template.expand turn.groups source.toList).map String.ofList, e)
  | .reply message =>
    match run e "" message with
    | (.ok message, e) =>
      let (text, e) := nested message e
      (.ok text, e)
    | (.error error, e) => (.error error, e)
  | .user => (.ok turn.user, e)
  | .depth => (.ok (toString turn.depth), e)
  | .topic => (.ok (((e.uservars? turn.user).map topicIn).getD defaultTopic), e)
  | .setTopic name =>
    match run e "" name with
    | (.ok name, e) => (.ok "", e.setTopic turn.user name)
    | (.error error, e) => (.error error, e)
  | .getUser key fallback =>
    (.ok (variableText fallback ((e.uservars? turn.user).bind fun vars => vars.get? key)), e)
  | .getBot key fallback => (.ok (variableText fallback (e.botvars.get? key)), e)
  | .setUser key text =>
    match run e "" text with
    | (.ok text, e) => (.ok "", e.changeVars turn.user fun vars => vars.insert key (.string text))
    | (.error error, e) => (.error error, e)
  | .setBot key text =>
    match run e "" text with
    | (.ok text, e) => (.ok "", e.changeBotvars fun vars => vars.insert key (.string text))
    | (.error error, e) => (.error error, e)
  | .setUserValue key value => (.ok "", e.changeVars turn.user fun vars => vars.insert key value)
  | .setBotValue key value => (.ok "", e.changeBotvars fun vars => vars.insert key value)
  | .deleteUser key => (.ok "", e.changeVars turn.user fun vars => vars.erase key)
  | .deleteBot key => (.ok "", e.changeBotvars fun vars => vars.erase key)
  | .increment key =>
    (.ok "", e.changeBotvars fun vars => vars.insert key (successor (vars.get? key)))
  | .fail message => (.error (.failed message), e)
  | .andThen first next =>
    match run e "" first with
    | (.ok text, e) => run e "" (next (e.sight turn) text)
    | (.error error, e) => (.error error, e)
termination_by structural action => action

/-- The text that a program makes behind a text that it has made already. The first action that
fails ends it; what the actions before it did stays. -/
def run (e : Engine) (made : String) : List Action → Effect
  | [] => (.ok made, e)
  | action :: rest =>
    match perform e action with
    | (.ok text, e) => run e (made ++ text) rest
    | (.error error, e) => (.error error, e)
termination_by structural actions => actions

end

end Run

/-- The first of a list of rules that matches, with its place, counted from one, and its groups. -/
def firstMatch (message : Text) (previous : Option Text) :
    List Rule → Option (Nat × Rule × Groups)
  | [] => none
  | r :: rest =>
    match r.match? message previous with
    | some groups => some (1, r, groups)
    | none => (firstMatch message previous rest).map fun m => (m.1 + 1, m.2)

namespace Engine

/-- The rules among which replies are selected, in the order of their ranks. -/
def candidates (e : Engine) : List Rule := ((e.topic? defaultTopic).map Topic.ranked).getD []

/-- The text of the last reply to a user. -/
def previousOf (e : Engine) (name : String) : Option Text := (e.users.get? name).bind User.previous

/-- The engine after a reply has been made: the text of a reply that is not empty and that was
asked for directly is remembered. -/
def conclude (user : String) (depth : Nat) (reply : String) (e : Engine) : Engine :=
  if reply.isEmpty then e.emit .emptyReply
  else if depth = 0 then
    e.setUser user
      { e.user user with previous := some (normalize e.config.substitutions reply) }
  else e

/-- The reply to a message at a depth, of which `remaining` is the distance to the depth limit. -/
def replyAt (user : String) : (remaining depth : Nat) → String → Engine → ReplyDetails × Engine
  | 0, depth, message, e =>
    (⟨"", "", none, 0, depth, .depthExceeded⟩,
      (e.emit (.asked user message)).emit (.refused user message e.config.depthLimit))
  | remaining + 1, depth, message, e =>
    let e := ((e.emit (.asked user message)).meet user).buildCache
    let target := normalize e.config.substitutions message
    let normalized := String.ofList target
    let e := e.emit (.normalized normalized)
    match firstMatch target (e.previousOf user) e.candidates with
    | none =>
      (⟨"", normalized, none, e.candidates.length, depth, .noMatch⟩, e.conclude user depth "")
    | some (considered, rule, groups) =>
      let e := e.emit (.matched rule.name)
      let nested := fun message e =>
        let (details, e) := replyAt user remaining (depth + 1) message e
        (details.reply, e)
      match run nested ⟨user, depth, groups⟩ e "" rule.handler.program with
      | (.ok reply, e) =>
        (⟨reply, normalized, some rule.name, considered, depth, .replied⟩,
          e.conclude user depth reply)
      | (.error error, e) =>
        (⟨"", normalized, some rule.name, considered, depth, .handlerFailed⟩,
          (e.emit (.handlerFailed rule.name error)).conclude user depth "")

/-- The reply to a message of a user, with how it came about. -/
def replyVerbose (user message : String) (e : Engine) : ReplyDetails × Engine :=
  replyAt user e.config.depthLimit 0 message e

/-- The reply to a message of a user. -/
def reply (user message : String) (e : Engine) : String × Engine :=
  let (details, e) := e.replyVerbose user message
  (details.reply, e)

end Engine

end Rejoinder
