import Rejoinder.Engine.Basic

/-!
# Loading

A load replaces all topics and rules by those of a source. It goes through the scripts in order and
through the declarations of each in order. Nothing stops it: a script that is missing, a rule that
cannot be made and a rule that is a duplicate are written to the log, kept in the report, and left
out.
-/

set_option autoImplicit false

namespace Rejoinder

/-- What a load has done. -/
structure LoadReport where
  /-- The description of the source. -/
  source : String
  /-- The number of scripts that were there. -/
  scripts : Nat
  /-- The number of rules in all topics. -/
  rules : Nat
  /-- The problems, in the order in which they were met. -/
  issues : List LoadIssue
deriving Repr

/-- Whether there were no problems. -/
def LoadReport.isClean (r : LoadReport) : Bool := r.issues.isEmpty

/-- An engine that is loading, with the report so far. -/
structure Loading where
  engine : Engine
  report : LoadReport

namespace Loading

/-- A problem is written to the log and kept in the report. -/
def record (issue : LoadIssue) (l : Loading) : Loading :=
  ⟨l.engine.emit (.issue issue), { l.report with issues := l.report.issues ++ [issue] }⟩

/-- A rule is made from its declaration and registered in a topic. -/
def loadRule (topic script : String) (spec : RuleSpec) (l : Loading) : Loading :=
  let name := script ++ "." ++ spec.name
  match Rule.ofSpec l.engine.grammar name spec with
  | .error e => l.record (.rule e)
  | .ok rule =>
    let t := (l.engine.topics.get? topic).getD (Topic.new topic)
    match t.insert rule with
    | (t, .added) =>
      let engine := { l.engine with topics := l.engine.topics.insert topic t }
      ⟨engine.emit (.ruleLoaded spec.pattern spec.previous spec.weight name), l.report⟩
    | (_, .alreadyPresent) => l
    | (_, .conflict existing) =>
      l.record (.duplicateRule topic spec.pattern spec.previous name existing)

/-- A declaration of a script is dealt with. -/
def loadDeclaration (topic script : String) (l : Loading) : Declaration → Loading
  | .rule spec => l.loadRule topic script spec
  | .alternate name _ => l.record (.unsupported script .alternate name)
  | .substitution word _ => l.record (.unsupported script .substitution word)

/-- A script is loaded. Its setup comes before its declarations. -/
def loadScript (script : Script) (l : Loading) : Loading :=
  let engine := ((l.engine.emit (.loadingScript script.name)).ensureTopic script.topicName)
    |>.changeBotvars script.setup
  script.declarations.foldl (loadDeclaration script.topicName script.name)
    ⟨engine, { l.report with scripts := l.report.scripts + 1 }⟩

/-- An entry of a source is loaded, or the reason why it is missing is recorded. -/
def loadEntry (l : Loading) : Except ScriptError Script → Loading
  | .ok script => l.loadScript script
  | .error e => l.record (.script e)

/-- The rules are counted, and their absence is a problem. -/
def finish (source : String) (l : Loading) : Loading :=
  let count := l.engine.ruleCount
  let counted : Loading := ⟨l.engine, { l.report with rules := count }⟩
  if count = 0 then counted.record (.noRules source) else counted

end Loading

/-- The report of a load, and the engine with the rules of the source. -/
def Engine.load (source : Source) (e : Engine) : LoadReport × Engine :=
  let start : Loading :=
    ⟨(e.emit (.loadingFrom source.description)).resetTopics, ⟨source.description, 0, 0, []⟩⟩
  let done := (source.scripts.foldl Loading.loadEntry start).finish source.description
  (done.report, done.engine)

end Rejoinder
