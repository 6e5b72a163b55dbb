import DeckScript.Decimal.Basic

/-!
# Numerals

The grammar of numbers as text: an optional sign, then either digits with an optional point and an
optional exponent, or one of the words for infinity and for not-a-number in any case. At least one
digit stands before or behind the point. There are no blanks, no digit separators and no other
bases.

## Main definitions

* `Numeral` — what a number's text says
* `Numeral.read?` — reading a text
-/

namespace DeckScript

/-- What the text of a number says. -/
inductive Numeral where
  | finite (negative : Bool) (value : Decimal)
  | infinite (negative : Bool)
  | notANumber
  deriving DecidableEq, Repr

namespace Numeral

/-- The number that a run of digits writes. -/
def digitsValue (ds : List Char) : Nat := Nat.ofDigitChars 10 ds 0

/-- The sign of a text and what follows it. -/
def splitSign : List Char → Bool × List Char
  | '-' :: rest => (true, rest)
  | '+' :: rest => (false, rest)
  | s => (false, s)

/-- The exponent that a text writes behind its digits: none at all, or a mark, an optional sign and
digits up to the end. -/
def exponent? : List Char → Option Int
  | [] => some 0
  | c :: rest =>
    if c = 'e' ∨ c = 'E' then
      let (negative, ds) := splitSign rest
      if ds.isEmpty ∨ !ds.all Char.isDigit then none
      else some (if negative then -(digitsValue ds : Int) else digitsValue ds)
    else none

/-- The digits behind a point, and what follows them. -/
def splitFraction : List Char → List Char × List Char
  | '.' :: rest => (rest.takeWhile Char.isDigit, rest.dropWhile Char.isDigit)
  | s => ([], s)

/-- The decimal that an unsigned text writes. -/
def decimal? (s : List Char) : Option Decimal :=
  let whole := s.takeWhile Char.isDigit
  let (fraction, rest) := splitFraction (s.dropWhile Char.isDigit)
  -- A point needs a digit on one of its sides.
  if (whole ++ fraction).isEmpty then none
  else (exponent? rest).map fun e => ⟨digitsValue (whole ++ fraction), e - fraction.length⟩

/-- The words for infinity. -/
def infinityWords : List (List Char) := ["inf".toList, "infinity".toList]

/-- The word for not-a-number. -/
def nanWord : List Char := "nan".toList

/-- What a text says if it is the text of a number. -/
def read? (s : List Char) : Option Numeral :=
  let (negative, body) := splitSign s
  let word := body.map Char.toLower
  if word ∈ infinityWords then some (infinite negative)
  else if word = nanWord then some notANumber
  else (decimal? body).map (finite negative)

end Numeral

end DeckScript
