import Rejoinder.Config
import Rejoinder.Topic
import Rejoinder.Engine.Event

/-!
# Engines

The state of an engine: its settings and grammar, the topics with their rules, the variables of the
bot and of the users, whether the compiled rules are up to date, and the events written so far.

Every operation of this module is a function from engines to engines. The rules are compiled
lazily: whatever changes rules or alternates marks the topics as out of date, and `buildCache`
brings them up to date when they are needed.
-/

set_option autoImplicit false

namespace Rejoinder

/-- The user variable that holds the topic of the user. -/
def topicKey : String := "__topic__"

/-- The bot variable that switches debug output: it is on for the text `True`. -/
def debugKey : String := "debug"

/-- The alternates with which the default topic begins. -/
def builtinAlternates : Alternates := Table.ofList [("colors", "(red|green|blue)")]

/-- The topic that a user's variables name; the default topic if they name none. -/
def topicIn (vars : Vars) : String := ((vars.get? topicKey).bind Json.text?).getD defaultTopic

/-- What is known about a user. -/
structure User where
  vars : Vars
  /-- The normalized text of the last reply to the user that was asked for directly and was not
  empty. -/
  previous : Option Text

namespace User

/-- A user who has just been met. -/
def new : User := ⟨Table.empty.insert topicKey (.string defaultTopic), none⟩

/-- The topic of the user. -/
def topic (u : User) : String := topicIn u.vars

/-- The user in another topic. -/
def setTopic (name : String) (u : User) : User :=
  { u with vars := u.vars.insert topicKey (.string name) }

end User

/-- The state of an engine. -/
structure Engine where
  config : Config
  grammar : Grammar
  topics : Table String Topic
  botvars : Vars
  users : Table String User
  /-- Whether the rules have been ranked and compiled since rules or alternates last changed. -/
  cacheBuilt : Bool
  /-- The events written so far, the last one first. -/
  journal : List Event

namespace Engine

/-- Whether debug messages are written. -/
def debugEnabled (e : Engine) : Bool :=
  e.config.debugLog && (e.botvars.get? debugKey).bind Json.text? == some "True"

/-- Whether events of a level are written. -/
def writes (e : Engine) : Level → Bool
  | .debug => e.debugEnabled
  | .warn => e.config.errorLog
  | .error => e.config.errorLog

/-- The engine with an event written, if its level is written at all. -/
def emit (event : Event) (e : Engine) : Engine :=
  if e.writes event.level then { e with journal := event :: e.journal } else e

/-- The events written so far, in order. -/
def events (e : Engine) : List Event := e.journal.reverse

/-- The engine with its events forgotten. -/
def clearEvents (e : Engine) : Engine := { e with journal := [] }

/-! ## Topics -/

/-- The engine with a topic of this name, which is new if there was none. -/
def ensureTopic (name : String) (e : Engine) : Engine :=
  if e.topics.contains name then e
  else { e with topics := e.topics.insert name (Topic.new name) }

/-- The topics with which every load begins: the default topic without rules. -/
def initialTopics : Table String Topic :=
  Table.empty.insert defaultTopic
    { Topic.new defaultTopic with alternates := builtinAlternates }

/-- The engine without any rules. -/
def resetTopics (e : Engine) : Engine := { e with topics := initialTopics, cacheBuilt := false }

/-- A new engine. -/
def withGrammar (config : Config) (grammar : Grammar) : Engine :=
  emit .created {
    config := config
    grammar := grammar
    topics := initialTopics
    botvars := Table.empty.insert debugKey (.string (if config.debug then "True" else "False"))
    users := .empty
    cacheBuilt := false
    journal := [] }

/-- The topic of a name. -/
def topic? (e : Engine) (name : String) : Option Topic := e.topics.get? name

/-- The names of the topics in ascending order. -/
def topicNames (e : Engine) : List String := e.topics.keys.mergeSort fun a b => !(b < a)

/-- The number of rules in all topics. -/
def ruleCount (e : Engine) : Nat := e.topics.values.foldr (fun t n => t.rules.length + n) 0

/-- The engine with an alternate added to a topic or replaced in it. -/
def addAlternate (topic name value : String) (e : Engine) : Engine :=
  let t := (e.topics.get? topic).getD (Topic.new topic)
  { e with topics := e.topics.insert topic (t.addAlternate name value), cacheBuilt := false }

/-- The engine with a substitution added or replaced; the word counts in lower case. -/
def addSubstitution (word replacement : String) (e : Engine) : Engine :=
  { e with config := e.config.withSubstitution word replacement }

/-- The events for the rules that do not compile, topic by topic. -/
def compileFailures (e : Engine) : List Event :=
  e.topics.values.flatMap fun t =>
    (t.failures e.grammar).map fun f => .compileFailed t.name f.1 f.2

/-- The engine with all rules ranked and compiled, unless they are up to date. -/
def buildCache (e : Engine) : Engine :=
  if e.cacheBuilt then e
  else
    let built := { e with topics := e.topics.map (Topic.build e.grammar), cacheBuilt := true }
    e.compileFailures.foldl (fun e event => e.emit event) built

/-! ## Users and variables -/

/-- What is known about a user, who counts as just met if nothing is. -/
def user (e : Engine) (name : String) : User := (e.users.get? name).getD User.new

/-- The engine with something else known about a user. -/
def setUser (name : String) (u : User) (e : Engine) : Engine :=
  { e with users := e.users.insert name u }

/-- The variables of a user, if the engine has met the user. -/
def uservars? (e : Engine) (name : String) : Option Vars := (e.users.get? name).map User.vars

/-- The topic of a user, if the engine has met the user. -/
def topicOf? (e : Engine) (name : String) : Option String := (e.users.get? name).map User.topic

/-- The engine with the variables of a user changed. The user is met by that. -/
def changeVars (name : String) (change : Vars → Vars) (e : Engine) : Engine :=
  let u := e.user name
  e.setUser name { u with vars := change u.vars }

/-- The engine with a user moved to a topic, whether it exists or not. -/
def setTopic (name topic : String) (e : Engine) : Engine :=
  e.setUser name ((e.user name).setTopic topic)

/-- Whether the engine has met a user. -/
def knows (e : Engine) (name : String) : Bool := e.users.contains name

/-- The engine with a user forgotten. -/
def resetUser (name : String) (e : Engine) : Engine := { e with users := e.users.erase name }

/-- The engine with all users forgotten. -/
def resetUsers (e : Engine) : Engine := { e with users := .empty }

/-- The engine with the bot variables changed. -/
def changeBotvars (change : Vars → Vars) (e : Engine) : Engine :=
  { e with botvars := change e.botvars }

/-- The engine after a user has been met and, if the user's topic does not exist, moved to the
default topic. -/
def meet (name : String) (e : Engine) : Engine :=
  let u := e.user name
  if e.topics.contains u.topic then e.setUser name u
  else (e.setUser name (u.setTopic defaultTopic)).emit (.topicGone name u.topic)

end Engine

end Rejoinder
