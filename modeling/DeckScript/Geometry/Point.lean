/-!
# Points, angles and ranges

Coordinates are numbers of any kind that can be added, subtracted, multiplied and divided; angles
need the trigonometric functions and so binary floating-point numbers.

## Main definitions

* `Point` — a point of the plane
* `rescale` — carrying a value from one range over to another
* `radians`, `polar`, `toPolar` — angles and polar coordinates
-/

namespace DeckScript.Geometry

/-- A point of the plane. -/
structure Point (α : Type) where
  x : α
  y : α
  deriving DecidableEq, Repr

/-- Carry `value` from the range `low₁` to `high₁` over to the range `low₂` to `high₂`. -/
def rescale {α : Type} [Add α] [Sub α] [Mul α] [Div α] (value low₁ high₁ low₂ high₂ : α) : α :=
  low₂ + (high₂ - low₂) * (value - low₁) / (high₁ - low₁)

/-- The circumference of the circle of diameter one. -/
def pi : Float := 3.141592653589793

/-- An angle in degrees as an angle in radians. -/
def radians (degrees : Float) : Float := degrees * (pi / 180)

/-- The point at distance `r` and angle `theta` from a centre. -/
def polar (cx cy r theta : Float) : Point Float := ⟨cx + r * theta.cos, cy + r * theta.sin⟩

/-- The length and the angle of the segment from one point to another. -/
def toPolar (x₁ y₁ x₂ y₂ : Float) : Float × Float :=
  let dx := x₂ - x₁
  let dy := y₂ - y₁
  ((dx * dx + dy * dy).sqrt, Float.atan2 dy dx)

end DeckScript.Geometry
