import Rejoinder.Pattern.Basic

/-!
# Printing patterns

The canonical text of a pattern: elements with single spaces between them, and no spaces inside
the brackets. Rules are told apart by the canonical texts of their patterns.
-/

set_option autoImplicit false

namespace Rejoinder

namespace Pattern

mutual

/-- The canonical text of an element. -/
def elementText : Element → Text
  | .word letters => letters
  | .anyWords => ['*']
  | .anyWord => ['_']
  | .choice branches => '(' :: Text.joinWith '|' (branchTexts branches) ++ [')']
  | .optional body => '[' :: Text.unwords (elementTexts body) ++ [']']
  | .reference name => '%' :: 'a' :: ':' :: name.toList
termination_by structural e => e

/-- The canonical texts of the elements of a pattern. -/
def elementTexts : List Element → List Text
  | [] => []
  | e :: es => elementText e :: elementTexts es
termination_by structural es => es

/-- The canonical texts of the branches of a choice. -/
def branchTexts : List (List Element) → List Text
  | [] => []
  | b :: bs => Text.unwords (elementTexts b) :: branchTexts bs
termination_by structural bs => bs

end

/-- The canonical text of a pattern. -/
def text (p : Pattern) : Text := Text.unwords (elementTexts p)

/-- The canonical text of a pattern as a string. -/
def format (p : Pattern) : String := String.ofList p.text

end Pattern

end Rejoinder
