/-!
# Errors of regular expressions

An error tells one reason to refuse an expression from another. The words that a compiler has for
it, and the place in the expression that they point to, are left out.
-/

set_option autoImplicit false

namespace Rejoinder.Regex

/-- Why a text is no regular expression of this library. -/
inductive Error
  /-- A group is still open at the end. -/
  | unclosedGroup
  /-- A closing bracket without a group to close. -/
  | unopenedGroup
  /-- The name of a group is missing, malformed or not finished. -/
  | badGroupName
  /-- Two groups have one name. -/
  | repeatedGroupName
  /-- A `?` or `+` with nothing before it. -/
  | nothingToRepeat
  /-- A construction outside the part of the syntax that is read here. -/
  | unsupported (c : Char)
  /-- Groups, repetitions, sequences and choices are nested too deeply. -/
  | tooDeep
  /-- An automaton for the expression would be too large. -/
  | tooLarge
deriving DecidableEq, Repr

end Rejoinder.Regex
