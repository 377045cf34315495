import Rejoinder.Target
import Rejoinder.Text.Number

/-!
# Configuration

The settings of an engine: whether debug output starts switched on, how deeply replies may be
nested, which of the two log sinks are open, and what words are replaced by.
-/

set_option autoImplicit false

namespace Rejoinder

/-- The settings of an engine. -/
structure Config where
  /-- The initial value of the bot variable that switches debug output. -/
  debug : Bool
  /-- The number of replies that may be nested in each other. -/
  depthLimit : Nat
  /-- Whether debug messages are written, provided that the bot variable asks for them. -/
  debugLog : Bool
  /-- Whether warnings and errors are written. -/
  errorLog : Bool
  substitutions : Substitutions

namespace Config

/-- How deeply replies may be nested if nothing else is said. -/
def defaultDepthLimit : Nat := 50

/-- The settings of an interactive bot. -/
def default : Config := ⟨false, defaultDepthLimit, true, true, .empty⟩

/-- The default settings, changed by the values of the two environment variables, where they are
set. A value that is no number leaves the limit as it is. -/
def ofEnvironment (debug? depth? : Option String) : Config :=
  let debug := match debug? with
    | some value =>
      let lowered := value.toList.map Char.toLower
      lowered == ['1'] || lowered == ['t', 'r', 'u', 'e']
    | none => false
  let limit := (depth?.bind fun value => Text.number? (Text.trim value.toList)).getD
    defaultDepthLimit
  { default with debug := debug, depthLimit := limit }

/-- The settings with debug output on or off. -/
def withDebug (debug : Bool) (c : Config) : Config := { c with debug := debug }

/-- The settings with another limit on the depth of replies. -/
def withDepthLimit (limit : Nat) (c : Config) : Config := { c with depthLimit := limit }

/-- The settings with both log sinks closed. -/
def quiet (c : Config) : Config := { c with debugLog := false, errorLog := false }

/-- The settings with one more substitution; the word counts in lower case. -/
def withSubstitution (word replacement : String) (c : Config) : Config :=
  let key := String.ofList (Text.lowercase word.toList)
  { c with substitutions := c.substitutions.insert key replacement }

end Config

end Rejoinder
