/-!
# Double precision numbers

A number that is no integer of 64 bits is kept with double precision: a sign, a whole number below
`2 ^ 53` and a power of two. A decimal number is rounded in two or more steps, one for its digits
and one for each multiplication or division by a power of ten, and each step gives the nearest
double precision number, of two equally near ones the even one.
-/

set_option autoImplicit false

namespace Rejoinder

/-- A double precision number without its sign: `significand * 2 ^ exponent`. -/
structure Magnitude where
  significand : Nat
  exponent : Int
deriving DecidableEq, Repr, Inhabited

namespace Magnitude

/-- The first number of 53 binary digits. -/
def firstLong : Nat := 0x10000000000000

/-- The exponent of the smallest magnitudes. -/
def minExponent : Int := -1074

/-- The exponent of the largest magnitudes. -/
def maxExponent : Int := 971

/-- The magnitude of zero. -/
def zero : Magnitude := ⟨0, minExponent⟩

/-- The whole number nearest to a quotient; a half goes to the even neighbour. -/
def roundQuotient (num den : Nat) : Nat :=
  let q := num / den
  let r := num % den
  if den < 2 * r ∨ (2 * r = den ∧ q % 2 = 1) then q + 1 else q

/-- The terms of a quotient divided by a power of two. -/
def shifted (num den : Nat) (exponent : Int) : Nat × Nat :=
  (num * Nat.pow 2 (-exponent).toNat, den * Nat.pow 2 exponent.toNat)

/-- The magnitude nearest to a quotient, however large. -/
def nearest (num den : Nat) : Magnitude :=
  if num = 0 then zero
  else
    let guess : Int := num.log2 - den.log2 - 52
    let (n, d) := shifted num den guess
    let exponent := max minExponent (if n / d < firstLong then guess - 1 else guess)
    let (n, d) := shifted num den exponent
    let significand := roundQuotient n d
    if significand = 2 * firstLong then ⟨firstLong, exponent + 1⟩ else ⟨significand, exponent⟩

/-- Whether the magnitude is one of a double precision number. -/
def isFinite (m : Magnitude) : Bool := m.exponent ≤ maxExponent

/-- The product of two magnitudes, rounded. -/
def multiply (a b : Magnitude) : Magnitude :=
  let (n, d) := shifted (a.significand * b.significand) 1 (-(a.exponent + b.exponent))
  nearest n d

/-- The quotient of two magnitudes, rounded. -/
def divide (a b : Magnitude) : Magnitude :=
  let (n, d) := shifted a.significand b.significand (b.exponent - a.exponent)
  nearest n d

/-- The magnitude of a power of ten. -/
def powerOfTen (n : Nat) : Magnitude := nearest (Nat.pow 10 n) 1

/-- The largest exponent of a power of ten that has a magnitude. -/
def maxPower : Nat := 308

/-- A magnitude divided by a power of ten, in steps of at most `maxPower`. -/
def divideByPower (m : Magnitude) (n : Nat) : Magnitude :=
  if n ≤ maxPower then m.divide (powerOfTen n)
  else if m.significand = 0 then m
  else divideByPower (m.divide (powerOfTen maxPower)) (n - maxPower)
termination_by n
decreasing_by simp only [maxPower] at *; omega

/-- The magnitude of a whole number times a power of ten, unless it is too large. -/
def ofDecimal? (digits : Nat) (exponent : Int) : Option Magnitude :=
  let m := nearest digits 1
  if exponent < 0 then some (m.divideByPower (-exponent).toNat)
  else if digits = 0 then some m
  else if maxPower < exponent.toNat then none
  else
    let product := m.multiply (powerOfTen exponent.toNat)
    if product.isFinite then some product else none

end Magnitude

/-- A double precision number. -/
structure Double where
  negative : Bool
  magnitude : Magnitude
deriving DecidableEq, Repr

end Rejoinder
