import DeckScript.Decimal.Numeral
import DeckScript.Decimal.Shortest

/-!
# Numbers as text

Scripts keep numbers as text and compute with binary floating-point numbers of 64 bits. This
module goes back and forth: a text is read as the nearest number, and a number is written with the
fewest digits that read back as it.

## Main definitions

* `Number.parse?` — reading a number
* `Number.Layout` — where positional notation ends and how an exponent is written
* `Number.text` — writing a number with the fewest digits
* `Number.fixed` — writing a number with a fixed number of places
-/

namespace DeckScript.Number

/-! ## Bits -/

/-- The bit that holds the sign. -/
def signBit : Nat := 0x8000000000000000

/-- The number with the given sign and magnitude. -/
def ofMagnitude (negative : Bool) (b : Nat) : Float :=
  Float.ofBits (UInt64.ofNat (b + if negative then signBit else 0))

/-- The sign of a number; zero has one too. -/
def isNegative (v : Float) : Bool := signBit ≤ v.toBits.toNat

/-- The magnitude of a number. -/
def magnitude (v : Float) : Nat := v.toBits.toNat % signBit

/-- The value that is not a number. -/
def notANumber : Float := Float.ofBits 0x7FF8000000000000

/-! ## Reading -/

/-- The number nearest to what a numeral says. -/
def ofNumeral : Numeral → Float
  | .finite negative d => ofMagnitude negative d.magnitude
  | .infinite negative => ofMagnitude negative Magnitude.infinity
  | .notANumber => notANumber

/-- The number that a text writes, if it writes one. -/
def parse? (s : String) : Option Float := (Numeral.read? s.toList).map ofNumeral

/-! ## Writing with the fewest digits -/

/-- How a decimal is laid out: positionally while its leading exponent lies between two bounds, and
else as a mantissa and an exponent with a sign and a least number of digits. -/
structure Layout where
  lowest : Int
  highest : Int
  exponentDigits : Nat

/-- Numbers are positional from `0.0001` up to six digits before the point, and exponents have at
least two digits. -/
def layout : Layout := ⟨-4, 5, 2⟩

/-- The digits of a whole number. -/
def digitChars (n : Nat) : List Char := Nat.toDigits 10 n

/-- Digits with a point behind the first `k` of them, unless nothing follows it. -/
def pointAfter (k : Nat) (ds : List Char) : List Char :=
  let tail := ds.drop k
  if tail.isEmpty then ds else ds.take k ++ '.' :: tail

/-- The exponent: its sign and its digits, filled up with zeros. -/
def exponentChars (l : Layout) (e : Int) : List Char :=
  let ds := digitChars e.natAbs
  (if e < 0 then '-' else '+') :: (List.replicate (l.exponentDigits - ds.length) '0' ++ ds)

/-- A decimal in positional notation. -/
def positional (d : Decimal) : List Char :=
  let ds := digitChars d.digits
  -- The point stands behind all digits, among them, or in front of them.
  if 0 ≤ d.exponent then ds ++ List.replicate d.exponent.toNat '0'
  else if 0 ≤ d.leading then pointAfter (d.leading.toNat + 1) ds
  else '0' :: '.' :: (List.replicate (-d.leading - 1).toNat '0' ++ ds)

/-- A decimal as a mantissa and an exponent. -/
def scientific (l : Layout) (d : Decimal) : List Char :=
  pointAfter 1 (digitChars d.digits) ++ 'e' :: exponentChars l d.leading

/-- A decimal in the notation that its size asks for. -/
def decimalChars (l : Layout) (d : Decimal) : List Char :=
  if l.lowest ≤ d.leading ∧ d.leading ≤ l.highest then positional d else scientific l d

/-- The characters of a number's text. -/
def chars (v : Float) : List Char :=
  let b := magnitude v
  -- The magnitudes above infinity are those of what is not a number.
  if Magnitude.infinity < b then "NaN".toList
  else if b = Magnitude.infinity then (if isNegative v then "-Inf" else "+Inf").toList
  else
    let body := decimalChars layout (Magnitude.shortest b)
    if isNegative v then '-' :: body else body

/-- A number with the fewest digits that read back as it. -/
def text (v : Float) : String := String.ofList (chars v)

/-! ## Writing with fixed places -/

/-- A whole number of `10 ^ (-places)` with its point. -/
def fixedChars (places n : Nat) : List Char :=
  let ds := digitChars n
  let padded := List.replicate (places + 1 - ds.length) '0' ++ ds
  pointAfter (padded.length - places) padded

/-- A number rounded to a number of places; a tie goes to the even last digit, and zero keeps the
sign of what was rounded. -/
def fixed (places : Nat) (v : Float) : String :=
  let b := magnitude v
  if Magnitude.infinity < b then "NaN"
  else
    let body :=
      if b = Magnitude.infinity then "inf".toList
      else fixedChars places
        (divHalfEven (Magnitude.units b * Nat.pow 10 places) Magnitude.unitsInOne)
    String.ofList (if isNegative v then '-' :: body else body)

end DeckScript.Number
