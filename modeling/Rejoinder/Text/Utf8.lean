/-!
# UTF-8

Characters as bytes. A range of code points is written by sequences of byte ranges, one for each
stretch in which every byte runs over a range whatever the others are. The sequences are in
ascending order, and code points that are no characters have none.
-/

set_option autoImplicit false

namespace Rejoinder.Text

/-- A range of bytes: its first and its last member. -/
abbrev ByteRange := Nat × Nat

/-- The sequences for the numbers from `lo` to `hi`, which are written as a number added to `lead`,
followed by `count` bytes with six bits each. -/
def digitRanges (count lead lo hi : Nat) : List (List ByteRange) :=
  match count with
  | 0 => [[(lead + lo, lead + hi)]]
  | count + 1 =>
    let block := Nat.pow 64 (count + 1)
    let part (top lo hi : Nat) : List (List ByteRange) :=
      (digitRanges count 0x80 lo hi).map ((lead + top, lead + top) :: ·)
    if lo / block = hi / block then part (lo / block) (lo % block) (hi % block)
    else
      let startsWhole := lo % block = 0
      let endsWhole := hi % block = block - 1
      let first := if startsWhole then lo / block else lo / block + 1
      let behind := if endsWhole then hi / block + 1 else hi / block
      (if startsWhole then [] else part (lo / block) (lo % block) (block - 1)) ++
        (if first < behind then
          [(lead + first, lead + behind - 1) :: List.replicate (count + 1) (0x80, 0xBF)]
        else []) ++
        (if endsWhole then [] else part (hi / block) 0 (hi % block))
termination_by structural count

/-- The stretches of code points that are written in one way: how many bytes follow the first one,
what is added to the first one, and the first and last code point. -/
def utf8Stretches : List (Nat × Nat × Nat × Nat) :=
  [(0, 0, 0x0, 0x7F), (1, 0xC0, 0x80, 0x7FF), (2, 0xE0, 0x800, 0xD7FF), (2, 0xE0, 0xE000, 0xFFFF),
   (3, 0xF0, 0x10000, 0x10FFFF)]

/-- The sequences of byte ranges for the characters in a range of code points. -/
def utf8Ranges (lo hi : Nat) : List (List ByteRange) :=
  utf8Stretches.flatMap fun (count, lead, first, last) =>
    if max lo first ≤ min hi last then digitRanges count lead (max lo first) (min hi last) else []

/-- The bytes of a text. -/
def utf8Bytes (text : List Char) : List Nat :=
  text.flatMap fun c => (String.utf8EncodeChar c).map UInt8.toNat

end Rejoinder.Text
