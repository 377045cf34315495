import Rejoinder.Regex.Reader
import Rejoinder.Regex.Normal
import Rejoinder.Regex.Size

/-!
# Usable expressions

A text is a usable regular expression if it can be read, if it is not nested more deeply than
`nestingLimit`, and if neither of its automata is larger than `sizeLimit`.
-/

set_option autoImplicit false

namespace Rejoinder.Regex

/-- How deeply an expression may be nested. -/
def nestingLimit : Nat := 250

/-- Whether both automata for an expression are small enough. -/
def fits (r : Regex) : Bool := r.size .forward ≤ sizeLimit && r.size .backward ≤ sizeLimit

/-- The regular expression that a text is, or why it is not usable. -/
def compile (text : Text) : Except Error Regex := do
  let t ← Tree.ofText? text
  if nestingLimit < t.depth then throw .tooDeep
  let r := ofTree t
  if r.fits then return r else throw .tooLarge

end Rejoinder.Regex
