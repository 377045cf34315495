import Rejoinder.Json.Double
import Rejoinder.Text.Number

/-!
# The text of a double precision number

A double precision number is written with the fewest decimal digits that are read back as the same
number. Of several such texts with as few digits the nearest to the number is taken.

Numbers from `10 ^ -5` up to, but not including, `10 ^ 16` are written without an exponent, and with
at least one digit on both sides of the point. The exponent of all others has a sign and no leading
zeros.
-/

set_option autoImplicit false

namespace Rejoinder

/-- A decimal number: `digits * 10 ^ exponent`. -/
structure Decimal where
  digits : Nat
  exponent : Int
deriving DecidableEq, Repr

namespace Magnitude

/-- The decimal number with this exponent that is nearest to a magnitude, if it is rounded to that
magnitude. The numbers that are, reach half the distance to the next magnitude to both sides, and
their ends belong to them if the significand is even. -/
def decimalAt? (m : Magnitude) (exponent : Int) : Option Decimal :=
  -- A quarter of the distance to the next larger magnitude is one unit.
  let value := 4 * m.significand
  let below :=
    if m.significand = firstLong ∧ minExponent < m.exponent then value - 1 else value - 2
  let above := value + 2
  let (scale, den) := shifted (Nat.pow 10 (-exponent).toNat) (Nat.pow 10 exponent.toNat)
    (2 - m.exponent)
  let inside (n : Nat) : Bool :=
    if m.significand % 2 = 0 then below * scale ≤ n * den && n * den ≤ above * scale
    else below * scale < n * den && n * den < above * scale
  let floor := value * scale / den
  let near := roundQuotient (value * scale) den
  if inside near then some ⟨near, exponent⟩
  else if inside floor then some ⟨floor, exponent⟩
  else if inside (floor + 1) then some ⟨floor + 1, exponent⟩
  else none

/-- The decimal number with the fewest digits that is rounded to a magnitude: the one with the
largest exponent. Zero has none, since it has no first digit. -/
def shortest? (m : Magnitude) : Option Decimal :=
  if m.significand = 0 then none
  else (List.range 640).findSome? fun (n : Nat) => m.decimalAt? (310 - n)

end Magnitude

namespace Decimal

/-- The text of an exponent, which always has a sign. -/
def exponentText (n : Int) : Text := (if n < 0 then '-' else '+') :: Text.ofNumber n.natAbs

/-- The text of a decimal number that is not zero. -/
def text (d : Decimal) : Text :=
  let digits := Text.ofNumber d.digits
  let point : Int := digits.length + d.exponent
  if 0 ≤ d.exponent ∧ point ≤ 16 then
    digits ++ List.replicate d.exponent.toNat '0' ++ ['.', '0']
  else if 0 < point ∧ point ≤ 16 then
    digits.take point.toNat ++ '.' :: digits.drop point.toNat
  else if -5 < point ∧ point ≤ 0 then
    ['0', '.'] ++ List.replicate (-point).toNat '0' ++ digits
  else
    let fraction := if digits.length = 1 then [] else '.' :: digits.drop 1
    digits.take 1 ++ fraction ++ 'e' :: exponentText (point - 1)

end Decimal

/-- The text of a double precision number. -/
def Double.text (x : Double) : Text :=
  let magnitude := match x.magnitude.shortest? with
    | some d => d.text
    | none => ['0', '.', '0']
  if x.negative then '-' :: magnitude else magnitude

end Rejoinder
