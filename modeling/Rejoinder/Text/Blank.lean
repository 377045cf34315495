import Rejoinder.Text.Ranges

/-!
# Blanks

The characters with the Unicode property `White_Space`. They separate the words of a message and
of a pattern, and they are what trimming removes.
-/

set_option autoImplicit false

namespace Rejoinder.Text

/-- The code points with the property `White_Space`. -/
def blankRanges : List (Nat × Nat) :=
  [(0x9, 0xD), (0x20, 0x20), (0x85, 0x85), (0xA0, 0xA0), (0x1680, 0x1680), (0x2000, 0x200A),
   (0x2028, 0x2029), (0x202F, 0x202F), (0x205F, 0x205F), (0x3000, 0x3000)]

/-- Whether a character is white space. -/
def isBlank (c : Char) : Bool := inRanges blankRanges c.toNat

end Rejoinder.Text
