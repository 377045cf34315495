import Rejoinder.Pattern.Error
import Rejoinder.Text.Words
import Rejoinder.Text.Alphanumeric
import Rejoinder.Text.Uppercase

/-!
# Tokens of patterns

`Token.scan` cuts the text of a pattern into words, references and single symbols, each with the
byte offset at which it begins, and drops the blanks between them. Words are as long as they can
be, and a reference reaches to the next blank, bracket or bar.
-/

set_option autoImplicit false

namespace Rejoinder

/-- A token of a pattern. -/
inductive Token
  | word (letters : Text)
  | star
  | underscore
  | openChoice
  | bar
  | closeChoice
  | openOptional
  | closeOptional
  | reference (name : String)
deriving DecidableEq, Repr

/-- A token and the byte offset at which it begins. -/
structure Lexeme where
  position : Nat
  token : Token
deriving DecidableEq, Repr

namespace Token

/-- The characters of literal words: letters and numbers, but nothing in upper case. -/
def isWordChar (c : Char) : Bool := Text.isAlphanumeric c && !Text.isUppercase c

/-- The token that a single character is. -/
def symbol? : Char → Option Token
  | '*' => some .star
  | '_' => some .underscore
  | '(' => some .openChoice
  | '|' => some .bar
  | ')' => some .closeChoice
  | '[' => some .openOptional
  | ']' => some .closeOptional
  | _ => none

/-- Whether a reference ends before this character. -/
def endsReference (c : Char) : Bool :=
  Text.isBlank c || c == '(' || c == ')' || c == '[' || c == ']' || c == '|'

/-- Whether a character may begin the name of an alternate. -/
def isNameStart (c : Char) : Bool := 'a' ≤ c && c ≤ 'z'

/-- Whether a character may occur in the name of an alternate. -/
def isNameChar (c : Char) : Bool := isNameStart c || c.isDigit || c == '_'

/-- The name in a reference: `%a:`, a lower case letter, and letters, digits and underscores. -/
def reference? : Text → Option String
  | '%' :: 'a' :: ':' :: first :: rest =>
    if isNameStart first && rest.all isNameChar then some (String.ofList (first :: rest)) else none
  | _ => none

/-- The tokens of a text that begins at a byte offset, or the first place where it has none. -/
def scan (position : Nat) (text : Text) : Except SyntaxFault (List Lexeme) :=
  match text with
  | [] => .ok []
  | c :: rest =>
    if Text.isBlank c then scan (position + c.utf8Size) rest
    else match symbol? c with
      | some token => do return ⟨position, token⟩ :: (← scan (position + c.utf8Size) rest)
      | none =>
        if c = '%' then
          let written := c :: rest.takeWhile (!endsReference ·)
          match reference? written with
          | none => .error ⟨position, .malformedReference (String.ofList written)⟩
          | some name => do
            return ⟨position, .reference name⟩ ::
              (← scan (position + Text.utf8Size written) (rest.dropWhile (!endsReference ·)))
        else if isWordChar c then do
          let letters := c :: rest.takeWhile isWordChar
          return ⟨position, .word letters⟩ ::
            (← scan (position + Text.utf8Size letters) (rest.dropWhile isWordChar))
        else if Text.isUppercase c then .error ⟨position, .upperCase⟩
        else .error ⟨position, .unexpectedCharacter c⟩
termination_by text.length
decreasing_by
  · simp
  · simp
  · exact Nat.lt_succ_of_le (List.dropWhile_sublist _).length_le
  · exact Nat.lt_succ_of_le (List.dropWhile_sublist _).length_le

end Token

end Rejoinder
