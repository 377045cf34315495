import Rejoinder.Text.Basic
import Rejoinder.Table

/-!
# Patterns

A pattern describes messages word by word. It is a sequence of elements: literal words, wildcards,
choices between patterns, optional parts, and references to alternates, which are patterns that are
kept elsewhere under a name.
-/

set_option autoImplicit false

namespace Rejoinder

/-- An element of a pattern. -/
inductive Element
  /-- A literal word, in lower case. -/
  | word (letters : Text)
  /-- One or more words, written `*`. -/
  | anyWords
  /-- Exactly one word, written `_`. -/
  | anyWord
  /-- One of several patterns, written `(a|b c)`. -/
  | choice (branches : List (List Element))
  /-- A pattern that may be left out, written `[a b]`. -/
  | optional (body : List Element)
  /-- The pattern kept under a name, written `%a:name`. -/
  | reference (name : String)
deriving Inhabited, BEq, Repr

/-- A pattern: its elements in order. -/
abbrev Pattern := List Element

/-- The texts of the patterns that references may name. -/
abbrev Alternates := Table String String

/-- Whether an element has to be there in every message that its pattern describes. -/
def Element.isRequired : Element → Bool
  | .optional _ => false
  | _ => true

end Rejoinder
