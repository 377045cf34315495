import Rejoinder.Script.Basic
import Rejoinder.Json.Reader

/-!
# Script files

The shape of a script file, and how it is read from JSON. Both a file and a rule in it may be
written as an object, in which no field is unknown or repeated, or as an array of its fields in a
fixed order. In the tables of a file a key may be repeated; the last value counts.
-/

set_option autoImplicit false

namespace Rejoinder

/-- A rule as it is written in a script file. -/
structure FileRule where
  name : Option String
  pattern : String
  previous : String
  weight : Int
  reply : Option String
  redirect : Option String
deriving Repr

/-- A script file. The tables are in ascending order of their keys. -/
structure ScriptFile where
  topic : String
  botvars : List (String × Json)
  rules : List FileRule
  alternates : List (String × String)
  substitutions : List (String × String)
deriving Repr

namespace Json

/-- The value of a field of an object with these fields, if the field is there. -/
def field? (name : String) (fields : List (String × Json)) : Option Json := fields.lookup name

/-- Whether an object has only these fields, and none of them twice. -/
def hasOnly (names : List String) (fields : List (String × Json)) : Bool :=
  fields.all (fun f => names.contains f.1) && decide (fields.map Prod.fst).Nodup

/-- A field that may be missing: its value as `read` reads it, or a default. -/
def optionalField? {α : Type} (read : Json → Option α) (default : α) : Option Json → Option α
  | none => some default
  | some value => read value

/-- A text or nothing. -/
def textOrNull? : Json → Option (Option String)
  | .null => some none
  | .string s => some (some s)
  | _ => none

/-- An integer of 32 bits. -/
def weight? : Json → Option Int
  | .integer n => if -0x80000000 ≤ n ∧ n < 0x80000000 then some n else none
  | _ => none

/-- A table of values, in ascending order of its keys. -/
def table? : Json → Option (List (String × Json))
  | .object fields =>
    match canonical (.object fields) with
    | .object sorted => some sorted
    | _ => none
  | _ => none

/-- A table of texts, in ascending order of its keys. A value that a later one replaces has to be a
text as well. -/
def textTable? : Json → Option (List (String × String))
  | .object fields =>
    if fields.all (fun f => f.2.text?.isSome) then do
      (← table? (.object fields)).mapM fun f => do return (f.1, ← f.2.text?)
    else none
  | _ => none

end Json

namespace FileRule

/-- The rule that the fields of an object or array describe. -/
def ofFields? (name pattern previous weight reply redirect : Option Json) : Option FileRule := do
  return {
    name := ← Json.optionalField? Json.textOrNull? none name
    pattern := ← (← pattern).text?
    previous := ← Json.optionalField? Json.text? "" previous
    weight := ← Json.optionalField? Json.weight? 0 weight
    reply := ← Json.optionalField? Json.textOrNull? none reply
    redirect := ← Json.optionalField? Json.textOrNull? none redirect }

/-- The rule that a value describes. -/
def ofJson? : Json → Option FileRule
  | .object fields =>
    if Json.hasOnly ["name", "pattern", "previous", "weight", "reply", "redirect"] fields then
      ofFields? (Json.field? "name" fields) (Json.field? "pattern" fields)
        (Json.field? "previous" fields) (Json.field? "weight" fields)
        (Json.field? "reply" fields) (Json.field? "redirect" fields)
    else none
  | .array [name, pattern, previous, weight, reply, redirect] =>
    ofFields? (some name) (some pattern) (some previous) (some weight) (some reply) (some redirect)
  | _ => none

end FileRule

namespace ScriptFile

/-- The rules that a value lists. -/
def rules? : Json → Option (List FileRule)
  | .array items => items.mapM FileRule.ofJson?
  | _ => none

/-- The file that the fields of an object or array describe. -/
def ofFields? (topic botvars rules alternates substitutions : Option Json) : Option ScriptFile := do
  return {
    topic := ← Json.optionalField? Json.text? defaultTopic topic
    botvars := ← Json.optionalField? Json.table? [] botvars
    rules := ← Json.optionalField? rules? [] rules
    alternates := ← Json.optionalField? Json.textTable? [] alternates
    substitutions := ← Json.optionalField? Json.textTable? [] substitutions }

/-- The file that a value describes. -/
def ofJson? : Json → Option ScriptFile
  | .object fields =>
    if Json.hasOnly ["topic", "botvars", "rules", "alternates", "substitutions"] fields then
      ofFields? (Json.field? "topic" fields) (Json.field? "botvars" fields)
        (Json.field? "rules" fields) (Json.field? "alternates" fields)
        (Json.field? "substitutions" fields)
    else none
  | .array items =>
    if items.length ≤ 5 then
      ofFields? items[0]? items[1]? items[2]? items[3]? items[4]?
    else none
  | _ => none

/-- The file that a text describes. -/
def ofText? (text : Text) : Option ScriptFile := do ofJson? (← Json.read? text)

end ScriptFile

end Rejoinder
