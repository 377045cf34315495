import Rejoinder.Regex.Error

/-!
# Errors of patterns

A pattern is refused where its text is no pattern, and later, when its references are replaced and
its matcher is built, for what it refers to. Each error holds its cause; `message` gives the words.
Of a rendered expression that is refused the words say just that; what the compiler of regular
expressions says about it is left out.
-/

set_option autoImplicit false

namespace Rejoinder

/-- Why a text is no pattern. -/
inductive SyntaxCause
  /-- A `%` that begins no reference; the text up to the next blank, bracket or bar. -/
  | malformedReference (text : String)
  | upperCase
  | unexpectedCharacter (c : Char)
  /-- The text ends inside a bracket. -/
  | unexpectedEnd
  /-- A closing bracket or a bar that belongs to no open bracket. -/
  | unbalanced
  /-- A pattern or a branch without elements. -/
  | emptySequence
  /-- A pattern or a branch that consists of optional parts only. -/
  | nothingRequired
deriving DecidableEq, Repr

/-- A cause and the byte offset at which it was met. -/
structure SyntaxFault where
  position : Nat
  cause : SyntaxCause
deriving DecidableEq, Repr

/-- A text that is no pattern, and where and why it is none. -/
structure SyntaxError where
  source : String
  fault : SyntaxFault
deriving DecidableEq, Repr

/-- Why the text kept under a name cannot stand for a reference to it. -/
inductive AlternateFault
  /-- The reference stands inside its own pattern. -/
  | recursive
  | malformed (error : SyntaxError)
deriving DecidableEq, Repr

/-- Why a pattern is not usable. -/
inductive PatternError
  | syntaxError (error : SyntaxError)
  | unknownAlternate (name : String)
  | badAlternate (name : String) (fault : AlternateFault)
  | invalidRegex (error : Regex.Error)
deriving DecidableEq, Repr

/-- The words for a cause. -/
def SyntaxCause.message : SyntaxCause → String
  | .malformedReference text => "malformed alternate reference \"" ++ text ++ "\""
  | .upperCase => "patterns must be lower case"
  | .unexpectedCharacter c => "unexpected character '" ++ String.singleton c ++ "'"
  | .unexpectedEnd => "unexpected end of pattern"
  | .unbalanced => "unbalanced bracket or stray '|'"
  | .emptySequence => "empty pattern or branch"
  | .nothingRequired => "a sequence needs at least one required element"

/-- The words for a text that is no pattern. -/
def SyntaxError.message (e : SyntaxError) : String :=
  "pattern syntax error in \"" ++ e.source ++ "\" at " ++ toString e.fault.position ++ ": " ++
    e.fault.cause.message

/-- The words for an unusable alternate. -/
def AlternateFault.message : AlternateFault → String
  | .recursive => "recursive alternate"
  | .malformed error => error.message

/-- The words for an unusable pattern. -/
def PatternError.message : PatternError → String
  | .syntaxError error => error.message
  | .unknownAlternate name => "pattern references unknown alternate \"" ++ name ++ "\""
  | .badAlternate name fault =>
    "alternate \"" ++ name ++ "\" is not a valid pattern fragment: " ++ fault.message
  | .invalidRegex _ => "rendered pattern is not a valid regex"

end Rejoinder
