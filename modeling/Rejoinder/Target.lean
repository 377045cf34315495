import Rejoinder.Text.Words
import Rejoinder.Text.Alphanumeric
import Rejoinder.Text.Lowercase
import Rejoinder.Table

/-!
# Targets

A target is what patterns are matched against: the words of a message in lower case, each one put
through the substitutions, which may make several words or none of it, and then freed of
everything but letters and numbers. A word of which nothing is left stays as an empty word, so the
normalized text shows it by one more space.
-/

set_option autoImplicit false

namespace Rejoinder

/-- What words are replaced by, as texts that may hold several words. -/
abbrev Substitutions := Table String String

/-- A message in the form in which it is matched. -/
structure Target where
  /-- The message itself. -/
  message : Text
  /-- The words of the message. -/
  words : List Text
  /-- What has become of each word. -/
  groups : List (List Text)
deriving DecidableEq, Repr

namespace Target

/-- The words that replace a word. -/
def substitute (substitutions : Substitutions) (word : Text) : List Text :=
  match substitutions.get? (String.ofList word) with
  | some replacement => Text.words replacement.toList
  | none => [word]

/-- The letters and numbers of a word. -/
def strip (word : Text) : Text := word.filter Text.isAlphanumeric

/-- What becomes of a word of a message. -/
def group (substitutions : Substitutions) (word : Text) : List Text :=
  (substitute substitutions (Text.lowercase word)).map strip

/-- The target of a message. -/
def ofText (substitutions : Substitutions) (message : Text) : Target :=
  let words := Text.words message
  ⟨message, words, words.map (group substitutions)⟩

/-- The text that patterns are matched against. -/
def normalized (t : Target) : Text := Text.unwords (t.groups.map Text.unwords)

end Target

/-- The normalized text of a message. -/
def normalize (substitutions : Substitutions) (message : String) : Text :=
  (Target.ofText substitutions message.toList).normalized

end Rejoinder
