import Rejoinder.Engine.Load
import Rejoinder.Engine.Reply
import Rejoinder.Engine.Summary

/-!
# Operations

Everything that can be asked of an engine, as data. An operation gives an answer and leaves an
engine behind, and a run performs operations one after the other. A statement about all that can
ever happen to an engine is a statement about all runs.
-/

set_option autoImplicit false

namespace Rejoinder

/-- Something that is asked of an engine. -/
inductive Operation
  /-- Replace all rules by those of a source. -/
  | load (source : Source)
  /-- Reply to a message. -/
  | reply (user message : String)
  /-- Reply to a message, and say how the reply came about. -/
  | replyVerbose (user message : String)
  | buildCache
  | ruleTable
  | topicNames
  | ruleCount
  | topic (name : String)
  | addAlternate (topic name value : String)
  | addSubstitution (word replacement : String)
  | config
  | botvars
  | changeBotvars (change : Vars → Vars)
  | uservars (user : String)
  | changeVars (user : String) (change : Vars → Vars)
  | topicOf (user : String)
  | setTopic (user topic : String)
  | resetUser (user : String)
  | resetUsers
  | describe

/-- What an operation answers. -/
inductive Answer
  | done
  | report (report : LoadReport)
  | reply (text : String)
  | details (details : ReplyDetails)
  | rules (rows : List RuleSummary)
  | names (names : List String)
  | count (n : Nat)
  | topic (topic : Option Topic)
  | config (config : Config)
  /-- The variables as they are, or as they were before a change. -/
  | vars (vars : Option Vars)
  | name (name : Option String)
  /-- Whether the user was known. -/
  | known (known : Bool)
  | description (text : String)

namespace Engine

/-- The answer to an operation, and the engine that it leaves behind. -/
def perform (e : Engine) : Operation → Answer × Engine
  | .load source => let (report, e) := e.load source; (.report report, e)
  | .reply user message => let (text, e) := e.reply user message; (.reply text, e)
  | .replyVerbose user message =>
    let (details, e) := e.replyVerbose user message
    (.details details, e)
  | .buildCache => (.done, e.buildCache)
  | .ruleTable => let (rows, e) := e.ruleTable; (.rules rows, e)
  | .topicNames => (.names e.topicNames, e)
  | .ruleCount => (.count e.ruleCount, e)
  | .topic name => (.topic (e.topic? name), e)
  | .addAlternate topic name value => (.done, e.addAlternate topic name value)
  | .addSubstitution word replacement => (.done, e.addSubstitution word replacement)
  | .config => (.config e.config, e)
  | .botvars => (.vars (some e.botvars), e)
  | .changeBotvars change => (.vars (some e.botvars), e.changeBotvars change)
  | .uservars user => (.vars (e.uservars? user), e)
  | .changeVars user change => (.vars (some (e.user user).vars), e.changeVars user change)
  | .topicOf user => (.name (e.topicOf? user), e)
  | .setTopic user topic => (.done, e.setTopic user topic)
  | .resetUser user => (.known (e.knows user), e.resetUser user)
  | .resetUsers => (.done, e.resetUsers)
  | .describe => (.description e.describe, e)

/-- The answers to operations that are performed one after the other, and the engine that they
leave behind. -/
def performAll (e : Engine) : List Operation → List Answer × Engine
  | [] => ([], e)
  | o :: os =>
    let (answer, e) := e.perform o
    let (answers, e) := e.performAll os
    (answer :: answers, e)

end Engine

end Rejoinder
