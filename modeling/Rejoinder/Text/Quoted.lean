import Rejoinder.Text.Basic
import Rejoinder.Text.Escaped

/-!
# Quoted text

How a text is shown between quotes in diagnostics: the quote, the backslash, the line controls and
the null character have escapes of their own, and every other character that cannot be seen on its
own is written by its number.
-/

set_option autoImplicit false

namespace Rejoinder.Text

/-- How a character is shown. -/
def quoteChar (c : Char) : Text :=
  if c = '"' then ['\\', '"']
  else if c = '\\' then ['\\', '\\']
  else if c = '\n' then ['\\', 'n']
  else if c = '\r' then ['\\', 'r']
  else if c = '\t' then ['\\', 't']
  else if c = '\x00' then ['\\', '0']
  else if isEscaped c then ['\\', 'u', '\x7b'] ++ Nat.toDigits 16 c.toNat ++ ['\x7d']
  else [c]

/-- A string between quotes. -/
def quoted (s : String) : String := String.ofList ('"' :: s.toList.flatMap quoteChar ++ ['"'])

end Rejoinder.Text
