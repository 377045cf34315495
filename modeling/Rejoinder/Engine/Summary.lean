import Rejoinder.Engine.Basic
import Rejoinder.Text.Quoted

/-!
# Summaries

Views of an engine for diagnostics: its rules in the order in which they are tried, and one-line
descriptions of a rule and of an engine.
-/

set_option autoImplicit false

namespace Rejoinder

/-- A rule as diagnostics show it. -/
structure RuleSummary where
  topic : String
  rule : String
  pattern : String
  previous : Option String
  weight : Int
  score : Nat
  /-- Whether the patterns of the rule are compiled. -/
  cached : Bool
deriving DecidableEq, Repr

namespace Rule

/-- The summary of a rule of a topic. -/
def summary (topic : String) (r : Rule) : RuleSummary :=
  ⟨topic, r.name, r.patternText, r.previousText, r.weight, r.score, r.isCompiled⟩

/-- A rule in one line. -/
def describe (r : Rule) : String :=
  "Rule \x7b name: " ++ Text.quoted r.name ++ ", pattern: " ++ Text.quoted r.patternText ++
    ", previous: " ++
    (match r.previousText with
      | some text => "Some(" ++ Text.quoted text ++ ")"
      | none => "None") ++
    ", weight: " ++ toString r.weight ++ ", score: " ++ toString r.score ++
    ", handler: \"<function>\", cached: " ++ toString r.isCompiled ++ " \x7d"

end Rule

/-- Settings in one line. -/
def Config.describe (c : Config) : String :=
  let entries := c.substitutions.entries.map fun s => Text.quoted s.1 ++ ": " ++ Text.quoted s.2
  "Config \x7b debug: " ++ toString c.debug ++ ", depth_limit: " ++ toString c.depthLimit ++
    ", debug_log: " ++ toString c.debugLog ++ ", error_log: " ++ toString c.errorLog ++
    ", substitutions: \x7b" ++ ", ".intercalate entries ++ "\x7d \x7d"

namespace Engine

/-- The engine with its cache built, and its rules: topic by topic in ascending order of the names,
and in each topic in the order of their ranks. -/
def ruleTable (e : Engine) : List RuleSummary × Engine :=
  let e := e.buildCache
  let rows := e.topicNames.flatMap fun name =>
    match e.topic? name with
    | some t => t.ranked.map (Rule.summary name)
    | none => []
  (rows, e)

/-- An engine in one line. -/
def describe (e : Engine) : String :=
  "Engine \x7b config: " ++ e.config.describe ++ ", grammar: \"<grammar>\", topics: [" ++
    ", ".intercalate (e.topics.keys.map Text.quoted) ++ "], users: " ++ toString e.users.size ++
    ", cache_built: " ++ toString e.cacheBuilt ++ " \x7d"

end Engine

end Rejoinder
