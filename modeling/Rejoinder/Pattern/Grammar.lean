import Rejoinder.Pattern.Printer
import Rejoinder.Pattern.Score
import Rejoinder.Pattern.Rendering
import Rejoinder.Regex.Compile

/-!
# Grammars

A grammar says how patterns are written, compared and turned into regular expressions. The bundled
grammar is the one of the preceding modules; another one can give some patterns, known by their
canonical texts, a regular expression or a score of their own.
-/

set_option autoImplicit false

namespace Rejoinder

/-- How patterns are written, told apart, ranked and matched. -/
structure Grammar where
  /-- The pattern that a string is. -/
  parse : String → Except PatternError Pattern
  /-- The canonical text of a pattern. -/
  format : Pattern → String
  /-- The part of a rule's rank that its pattern decides. -/
  score : Pattern → Nat
  /-- The regular expression of a pattern, without anchors. -/
  render : Alternates → Pattern → Except PatternError Text

namespace Grammar

/-- The bundled grammar. -/
def bundled : Grammar where
  parse source := (Pattern.parse source).mapError .syntaxError
  format := Pattern.format
  score := Pattern.score
  render := Pattern.render

/-- The grammar in which the patterns with these canonical texts have these regular expressions. -/
def withBodies (bodies : Table String Text) (g : Grammar) : Grammar :=
  { g with
    render := fun alternates p =>
      match bodies.get? (g.format p) with
      | some body => .ok body
      | none => g.render alternates p }

/-- The grammar in which the patterns with these canonical texts have these scores. -/
def withScores (scores : Table String Nat) (g : Grammar) : Grammar :=
  { g with score := fun p => (scores.get? (g.format p)).getD (g.score p) }

/-- The expression that matches a text only as a whole. -/
def anchored (body : Text) : Text := ['^', '(', '?', ':'] ++ body ++ [')', '$']

/-- The regular expression that decides whether a pattern describes a text. -/
def compile (g : Grammar) (alternates : Alternates) (p : Pattern) : Except PatternError Regex := do
  let body ← g.render alternates p
  (Regex.compile (anchored body)).mapError .invalidRegex

end Grammar

end Rejoinder
