/-!
# Decimals and their nearest binary values

A decimal is a whole number of some power of ten. Its value as a binary floating-point number of
64 bits is the nearest one, and of two equally near ones the one with an even last bit.

A magnitude is the value of such a number without its sign, given by its 63 lower bits. Magnitudes
rise with their bits, and each is a whole number of units of `2 ^ (-1074)`, so all questions about
them are questions about natural numbers.

## Main definitions

* `divHalfEven` — a quotient rounded to the nearest whole number, ties to even
* `Magnitude.units` — a magnitude as a number of units
* `Magnitude.nearest` — the magnitude nearest to a fraction
* `Decimal` — a whole number of a power of ten
* `Decimal.magnitude` — the magnitude nearest to a decimal
-/

namespace DeckScript

/-- `num / den` rounded to the nearest whole number; a tie goes to the even one. -/
def divHalfEven (num den : Nat) : Nat :=
  let q := num / den
  let r := num % den
  if den < 2 * r ∨ den = 2 * r ∧ q % 2 = 1 then q + 1 else q

namespace Magnitude

/-- The number of bits of a magnitude that hold its fraction. -/
def fractionBits : Nat := 52

/-- The number of halvings of one that give a unit. -/
def unitExponent : Nat := 1074

/-- How many magnitudes lie between two neighbouring powers of two. -/
def fractions : Nat := Nat.pow 2 fractionBits

/-- How many units make one. -/
def unitsInOne : Nat := Nat.pow 2 unitExponent

/-- The bits of the infinite magnitude. -/
def infinity : Nat := 0x7FF0000000000000

/-- The magnitude with bits `b` in units of `2 ^ (-unitExponent)`. -/
def units (b : Nat) : Nat :=
  let exponent := b / fractions
  let fraction := b % fractions
  if exponent = 0 then fraction else (fraction + fractions) * Nat.pow 2 (exponent - 1)

/-- The magnitude nearest to `num / den`, ties to even; infinity from half a step above the
largest finite one. -/
def nearest (num den : Nat) : Nat :=
  let num := num * unitsInOne
  -- The step between magnitudes of this size is `2 ^ shift` units. The bits count the steps, so a
  -- quotient that rounds up to a power of two carries over into the exponent by itself.
  let shift := (num / den).log2 - fractionBits
  min (shift * fractions + divHalfEven num (den * Nat.pow 2 shift)) infinity

end Magnitude

/-- The number `digits * 10 ^ exponent`. -/
structure Decimal where
  digits : Nat
  exponent : Int
  deriving DecidableEq, Repr

namespace Decimal

/-- The numerator of the decimal as a fraction. -/
def num (d : Decimal) : Nat := d.digits * Nat.pow 10 d.exponent.toNat

/-- The denominator of the decimal as a fraction. -/
def den (d : Decimal) : Nat := Nat.pow 10 (-d.exponent).toNat

/-- The decimal is below `10 ^ (-330)`: it has too few digits for its exponent. -/
def isTiny (d : Decimal) : Bool := (d.digits.log2 : Int) + 1 < 3 * (-d.exponent - 330)

/-- The magnitude nearest to a decimal. Decimals that are too large or too small for any finite
magnitude but zero are told by their exponents, before their fraction is computed. -/
def magnitude (d : Decimal) : Nat :=
  if d.digits = 0 then 0
  -- The largest finite magnitude is below `10 ^ 309`.
  else if 310 < d.exponent then Magnitude.infinity
  else if d.isTiny then 0
  else Magnitude.nearest d.num d.den

/-- How many digits the decimal is written with. -/
def length (d : Decimal) : Nat := (Nat.toDigits 10 d.digits).length

/-- The exponent of the decimal's first digit. -/
def leading (d : Decimal) : Int := d.exponent + d.length - 1

end Decimal

end DeckScript
