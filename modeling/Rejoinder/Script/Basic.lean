import Rejoinder.Rule

/-!
# Scripts

A script is what an engine loads: a name, a topic, values for bot variables, and declarations. A
source yields scripts, or the reasons why it could not yield them, in a fixed order.

The words for a missing script name the file and what was tried with it. What the operating system
says about a file that cannot be read is left out, and so is what the reader of JSON says about one
that it cannot make sense of.
-/

set_option autoImplicit false

namespace Rejoinder

/-- What a script declares. -/
inductive Declaration
  | rule (spec : RuleSpec)
  /-- An alternate. An engine reports it and takes no notice of it. -/
  | alternate (name value : String)
  /-- A word substitution. An engine reports it and takes no notice of it. -/
  | substitution (word replacement : String)

namespace Vars

/-- The variables after these have got these values, one after the other. -/
def assign (values : List (String × Json)) (vars : Vars) : Vars :=
  values.foldl (fun vars v => vars.insert v.1 v.2) vars

/-- The variables after those of these that had no value yet have got one, one after the other. -/
def supply (values : List (String × Json)) (vars : Vars) : Vars :=
  values.foldl (fun vars v => if vars.contains v.1 then vars else vars.insert v.1 v.2) vars

end Vars

/-- A script. -/
structure Script where
  name : String
  topic : String
  /-- What the script does to the bot variables before its declarations are read: nothing, if it
  does not say. -/
  setup : Vars → Vars := id
  declarations : List Declaration

/-- The topic of a script that names none. -/
def defaultTopic : String := "all"

/-- The name of the topic in which a script's rules are registered. -/
def Script.topicName (s : Script) : String :=
  let name := Text.trim s.topic.toList
  if name.isEmpty then defaultTopic else String.ofList name

/-- What is wrong with the responses of a rule in a script file. -/
inductive ResponseFault
  | both
  | neither
deriving DecidableEq, Repr

/-- Why there is no script. -/
inductive ScriptError
  | notADirectory (path : String)
  | unreadable (path : String)
  /-- A file that is no JSON, or JSON of another shape than a script. -/
  | malformed (path : String)
  | invalid (path rule : String) (fault : ResponseFault)
  | instantiation (name message : String)
deriving DecidableEq, Repr

/-- The words for a missing script. -/
def ScriptError.message : ScriptError → String
  | .notADirectory path => path ++ " is not a directory"
  | .unreadable path => "failed to read " ++ path
  | .malformed path => "failed to parse " ++ path
  | .invalid path rule .both =>
    "invalid script " ++ path ++ ": rule " ++ rule ++ " has both \"reply\" and \"redirect\""
  | .invalid path rule .neither =>
    "invalid script " ++ path ++ ": rule " ++ rule ++ " needs \"reply\" or \"redirect\""
  | .instantiation name message => "failed to instantiate script " ++ name ++ ": " ++ message

/-- Where scripts come from: a description, and the scripts or the reasons why there are none. -/
structure Source where
  description : String
  scripts : List (Except ScriptError Script)

/-- Scripts that are part of the program. -/
structure Registry where
  scripts : List (Except ScriptError Script)

namespace Registry

/-- The registry without scripts. -/
def empty : Registry := ⟨[]⟩

/-- The number of entries, those that fail included. -/
def size (r : Registry) : Nat := r.scripts.length

/-- Whether the registry has no entries. -/
def isEmpty (r : Registry) : Bool := r.scripts.isEmpty

/-- The registry as a source. -/
def source (r : Registry) : Source :=
  ⟨"script registry (" ++ toString r.size ++ " scripts)", r.scripts⟩

/-- The registry in one line, for diagnostics. -/
def summary (r : Registry) : String := "ScriptRegistry \x7b scripts: " ++ toString r.size ++ " \x7d"

end Registry

end Rejoinder
