import DeckScript.Decimal.Basic

/-!
# Shortest decimals

The shortest decimal of a magnitude is the coarsest one that reads back as it. Decimals with the
exponent `e` form a grid of step `10 ^ e`; if any point of a grid reads back as a magnitude, one
of the magnitude's two neighbours on that grid does. So the search goes from coarse grids to fine
ones and stops at the first with such a neighbour. It ends at the grid of step
`10 ^ (-unitExponent)` at the latest, which holds every magnitude.

## Main definitions

* `Magnitude.below` — the neighbour from below on a grid
* `Magnitude.onGrid?` — the neighbour that reads back, the nearer one if both do
* `Magnitude.shortest` — the shortest decimal

## Main results

* `magnitude_of_onGrid?` — a decimal found on a grid reads back
-/

namespace DeckScript.Magnitude

/-- The exponent of grid number `k`. -/
def gridExponent (k : Nat) : Int := (k : Int) - unitExponent

/-- The magnitude's numerator on the grid of step `10 ^ e`, where the step is one. -/
def gridNum (b : Nat) (e : Int) : Nat := units b * Nat.pow 10 (-e).toNat

/-- The magnitude's denominator on the grid of step `10 ^ e`, where the step is one. -/
def gridDen (e : Int) : Nat := unitsInOne * Nat.pow 10 e.toNat

/-- The last point of the grid of step `10 ^ e` that is not above the magnitude. -/
def below (b : Nat) (e : Int) : Decimal := ⟨gridNum b e / gridDen e, e⟩

/-- The point after it. -/
def above (b : Nat) (e : Int) : Decimal := ⟨gridNum b e / gridDen e + 1, e⟩

/-- The magnitude lies in the upper half between its neighbours, or in the middle. -/
def nearerAbove (b : Nat) (e : Int) : Bool := gridDen e ≤ 2 * (gridNum b e % gridDen e)

/-- The neighbour on the grid of step `10 ^ e` that reads back as the magnitude; the nearer one if
both do, and the upper one if they are equally near. -/
def onGrid? (b : Nat) (e : Int) : Option Decimal :=
  -- Reading back is tested by reading, so the search needs no bounds for what rounds to `b`.
  match decide ((below b e).magnitude = b), decide ((above b e).magnitude = b) with
  | true, true => some (if nearerAbove b e then above b e else below b e)
  | true, false => some (below b e)
  | false, true => some (above b e)
  | false, false => none

theorem magnitude_of_onGrid? {b : Nat} {e : Int} {d : Decimal} (h : onGrid? b e = some d) :
    d.magnitude = b := by
  unfold onGrid? at h
  split at h
  · split at h <;> simp_all
  all_goals simp_all

/-- Search the grids from number `k` downwards. -/
def search (b : Nat) : Nat → Decimal
  | 0 => below b (gridExponent 0)
  | k + 1 =>
    match onGrid? b (gridExponent (k + 1)) with
    | some d => d
    | none => search b k

/-- The number of a grid whose step exceeds twice the magnitude: a magnitude of `n` binary digits
before the point is below `2 ^ n`, which is at most `10 ^ (31 n / 100)`, and below
`10 ^ (3 n / 10)` for negative `n`. -/
def coarsestGrid (b : Nat) : Nat :=
  let n : Int := ((units b).log2 : Int) + 2 - unitExponent
  ((if 0 ≤ n then n * 31 / 100 + 1 else -(-n * 3 / 10)) + unitExponent).toNat

/-- The decimal with the fewest digits that reads back as the magnitude. -/
def shortest (b : Nat) : Decimal := if b = 0 then ⟨0, 0⟩ else search b (coarsestGrid b)

end DeckScript.Magnitude
