import Rejoinder.Text.Basic

/-!
# Numbers of one machine word

Group numbers and limits are natural numbers below `2 ^ 64`, written in ASCII digits. A leading
plus sign is allowed, and so are leading zeros; nothing else is.
-/

set_option autoImplicit false

namespace Rejoinder.Text

/-- The first number that does not fit into one machine word of 64 bits. -/
def wordLimit : Nat := 0x10000000000000000

/-- The number that a non-empty list of ASCII digits stands for, if it fits into one machine
word. -/
def digitsValue? (t : Text) : Option Nat :=
  if t.isEmpty || !t.all Char.isDigit then none
  else
    let n := Nat.ofDigitChars 10 t 0
    if n < wordLimit then some n else none

/-- The number that a text stands for, with at most one plus sign in front. -/
def number? : Text → Option Nat
  | '+' :: digits => digitsValue? digits
  | digits => digitsValue? digits

/-- The decimal digits of a number. -/
def ofNumber (n : Nat) : Text := Nat.toDigits 10 n

end Rejoinder.Text
