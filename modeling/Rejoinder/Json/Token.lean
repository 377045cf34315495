import Rejoinder.Json.Basic
import Rejoinder.Text.Number

/-!
# Tokens of JSON text

`Token.scan` cuts a text into brackets, separators and scalar values and drops the white space
between them. It is strict: strings hold no raw control characters and no lone surrogates, numbers
have no plus sign and no leading zero, and no other words than `true`, `false` and `null` exist.
-/

set_option autoImplicit false

namespace Rejoinder.Json

/-- A token: a bracket, a separator, or a value that is neither an array nor an object. -/
inductive Token
  | openArray
  | closeArray
  | openObject
  | closeObject
  | comma
  | colon
  | scalar (value : Json)

namespace Token

/-- What follows the part of a text that has been read: a strictly shorter text. -/
abbrev Rest (s : Text) := { r : Text // r.length < s.length }

/-- The value of a hexadecimal digit. -/
def hexDigit? (c : Char) : Option Nat :=
  if c.isDigit then some (c.toNat - '0'.toNat)
  else if 'a' ≤ c ∧ c ≤ 'f' then some (c.toNat - 'a'.toNat + 10)
  else if 'A' ≤ c ∧ c ≤ 'F' then some (c.toNat - 'A'.toNat + 10)
  else none

/-- The number that four hexadecimal digits stand for. -/
def hexQuad? (a b c d : Char) : Option Nat := do
  return 4096 * (← hexDigit? a) + 256 * (← hexDigit? b) + 16 * (← hexDigit? c) + (← hexDigit? d)

/-- The character that a single letter after a backslash stands for. -/
def escaped? : Char → Option Char
  | '"' => some '"'
  | '\\' => some '\\'
  | '/' => some '/'
  | 'b' => some '\x08'
  | 'f' => some '\x0c'
  | 'n' => some '\n'
  | 'r' => some '\r'
  | 't' => some '\t'
  | _ => none

/-- The low half of a surrogate pair, written as an escape at the beginning of the text. -/
def lowSurrogate? : (s : Text) → Option (Nat × { r : Text // r.length ≤ s.length })
  | '\\' :: 'u' :: a :: b :: c :: d :: rest => do
    let low ← hexQuad? a b c d
    if 0xDC00 ≤ low ∧ low < 0xE000 then return (low, ⟨rest, by simp; omega⟩) else none
  | _ => none

/-- The characters of a string, read from behind its opening quote, and what follows its closing
quote. A character beyond the first plane is escaped as a pair of surrogates. -/
def scanString (s : Text) : Option (Text × Rest s) :=
  match s with
  | [] => none
  | '"' :: rest => some ([], ⟨rest, by simp⟩)
  | '\\' :: 'u' :: a :: b :: c :: d :: rest => do
    let unit ← hexQuad? a b c d
    if 0xD800 ≤ unit ∧ unit < 0xDC00 then
      let (low, ⟨behind, _⟩) ← lowSurrogate? rest
      let (chars, ⟨r, _⟩) ← scanString behind
      let code := 0x10000 + 0x400 * (unit - 0xD800) + (low - 0xDC00)
      return (Char.ofNat code :: chars, ⟨r, by simp; omega⟩)
    else if 0xDC00 ≤ unit ∧ unit < 0xE000 then none
    else
      let (chars, ⟨r, _⟩) ← scanString rest
      return (Char.ofNat unit :: chars, ⟨r, by simp; omega⟩)
  | '\\' :: c :: rest => do
    let x ← escaped? c
    let (chars, ⟨r, _⟩) ← scanString rest
    return (x :: chars, ⟨r, by simp; omega⟩)
  | c :: rest =>
    if c.toNat < 0x20 then none
    else do
      let (chars, ⟨r, _⟩) ← scanString rest
      return (c :: chars, ⟨r, by simp; omega⟩)
termination_by s.length
decreasing_by all_goals (simp only [List.length_cons]; omega)

/-- The digits at the beginning of a text and what follows them, if there is a digit. -/
def takeDigits? (t : Text) : Option (Text × Text) :=
  let digits := t.takeWhile Char.isDigit
  if digits.isEmpty then none else some (digits, t.dropWhile Char.isDigit)

/-- The digits behind the point at the beginning of a text; none if there is no point. -/
def takeFraction? : Text → Option (Text × Text)
  | '.' :: rest => takeDigits? rest
  | rest => some ([], rest)

/-- The exponent at the beginning of a text, with whether one was written. -/
def takeExponent? : Text → Option (Option Int × Text)
  | [] => some (none, [])
  | e :: rest =>
    if e = 'e' ∨ e = 'E' then do
      let (negative, rest) := match rest with
        | '-' :: rest => (true, rest)
        | '+' :: rest => (false, rest)
        | rest => (false, rest)
      let (digits, rest) ← takeDigits? rest
      let n : Int := Nat.ofDigitChars 10 digits 0
      return (some (if negative then -n else n), rest)
    else some (none, e :: rest)

/-- The number that digits stand for when they are put behind those of another number, up to the
first digit with which it would not fit into one machine word, and the digits from there on. -/
def appendDigits (n : Nat) : Text → Nat × Text
  | [] => (n, [])
  | c :: rest =>
    let m := 10 * n + (c.toNat - '0'.toNat)
    if m < Text.wordLimit then appendDigits m rest else (n, c :: rest)

/-- The double precision number with these digits before and behind the point and this exponent.
Digits that do not fit into one machine word together with those before them are taken for zeros. -/
def double? (negative : Bool) (whole fraction : Text) (exponent : Int) : Option Double := do
  let (n, more) := appendDigits 0 whole
  let (n, unused) := appendDigits n fraction
  let places : Int := fraction.length - unused.length
  return ⟨negative, ← Magnitude.ofDecimal? n (exponent + more.length - places)⟩

/-- The value of a number literal. A literal without fraction and exponent is an integer if it fits
64 bits, signed or unsigned; negative zero is none. -/
def number? (literal : Text) : Option Json := do
  let (negative, magnitude) := match literal with
    | '-' :: rest => (true, rest)
    | rest => (false, rest)
  let (whole, rest) ← takeDigits? magnitude
  if whole.head? = some '0' ∧ whole.length ≠ 1 then none
  let (fraction, rest) ← takeFraction? rest
  let (exponent, rest) ← takeExponent? rest
  if !rest.isEmpty then none
  let n := Nat.ofDigitChars 10 whole 0
  if fraction.isEmpty ∧ exponent.isNone ∧
      (if negative then 0 < n ∧ n ≤ 0x8000000000000000 else n < Text.wordLimit) then
    return .integer (if negative then -(n : Int) else n)
  else return .decimal (← double? negative whole fraction (exponent.getD 0))

/-- Whether a character can occur in a number or in one of the three names. -/
def isWordChar (c : Char) : Bool := c.isAlphanum || c == '+' || c == '-' || c == '.'

/-- The scalar value that a word is. -/
def word? (w : Text) : Option Json :=
  if w = ['t', 'r', 'u', 'e'] then some (.bool true)
  else if w = ['f', 'a', 'l', 's', 'e'] then some (.bool false)
  else if w = ['n', 'u', 'l', 'l'] then some .null
  else number? w

/-- The token that a single character is. -/
def punctuation? : Char → Option Token
  | '[' => some .openArray
  | ']' => some .closeArray
  | '{' => some .openObject
  | '}' => some .closeObject
  | ',' => some .comma
  | ':' => some .colon
  | _ => none

/-- Whether a character may stand between tokens. -/
def isSpace (c : Char) : Bool := c == ' ' || c == '\n' || c == '\r' || c == '\t'

/-- The tokens of a text, if it consists of tokens and white space only. -/
def scan (s : Text) : Option (List Token) :=
  match s with
  | [] => some []
  | c :: rest =>
    if isSpace c then scan rest
    else match punctuation? c with
      | some token => do return token :: (← scan rest)
      | none =>
        if c = '"' then do
          let (chars, ⟨behind, _⟩) ← scanString rest
          return .scalar (.string (String.ofList chars)) :: (← scan behind)
        else do
          let value ← word? ((c :: rest).takeWhile isWordChar)
          return .scalar value :: (← scan (rest.dropWhile isWordChar))
termination_by s.length
decreasing_by
  · simp
  · simp
  · simp; omega
  · exact Nat.lt_succ_of_le (List.dropWhile_sublist _).length_le

end Token

end Rejoinder.Json
