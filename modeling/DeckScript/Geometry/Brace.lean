import DeckScript.Geometry.Arrowhead

/-!
# Braces

A brace is drawn with six strokes from its point: two curves at the point, two connecting lines
and two curves at the ends.

## Main definitions

* `Stroke` — a curve with one control point, or a line
* `brace` — the strokes of a brace
-/

namespace DeckScript.Geometry

/-- One stroke of a brace. -/
inductive Stroke (α : Type) where
  /-- A curve: its start, its control point and its end. -/
  | curve (start control finish : Point α)
  | line (start finish : Point α)
  deriving DecidableEq, Repr

variable {α : Type} [Add α] [Sub α] [Mul α] [Div α] [Neg α] [OfNat α 1] [OfNat α 2]

/-- The brace along the vertical with its point at `(x, y)`; `sign` tells on which side of the
point it lies. The four curves come first. -/
def uprightBrace (x y size width height sign : α) : List (Stroke α) :=
  let half := size / 2
  let reach := half - height / 2
  let bend := x + sign * width / 2
  let edge := x + sign * width
  [.curve ⟨x, y⟩ ⟨bend, y⟩ ⟨bend, y + height⟩,
   .curve ⟨x, y⟩ ⟨bend, y⟩ ⟨bend, y - height⟩,
   .curve ⟨bend, y + reach⟩ ⟨bend, y + half⟩ ⟨edge, y + half⟩,
   .curve ⟨bend, y - reach⟩ ⟨bend, y - half⟩ ⟨edge, y - half⟩,
   .line ⟨bend, y + height⟩ ⟨bend, y + reach⟩,
   .line ⟨bend, y - height⟩ ⟨bend, y - reach⟩]

/-- The brace along the horizontal with its point at `(x, y)`; `sign` tells on which side of the
point it lies. The end curves come last. -/
def levelBrace (x y size width height sign : α) : List (Stroke α) :=
  let reach := size / 2 - width
  let bend := y + sign * height
  let edge := y + sign * 2 * height
  [.curve ⟨x, y⟩ ⟨x, bend⟩ ⟨x + width, bend⟩,
   .curve ⟨x, y⟩ ⟨x, bend⟩ ⟨x - width, bend⟩,
   .line ⟨x + width, bend⟩ ⟨x + reach, bend⟩,
   .line ⟨x - width, bend⟩ ⟨x - reach, bend⟩,
   .curve ⟨x + reach, bend⟩ ⟨x + reach + width, bend⟩ ⟨x + reach + width, edge⟩,
   .curve ⟨x - reach, bend⟩ ⟨x - reach - width, bend⟩ ⟨x - reach - width, edge⟩]

/-- The strokes of a brace with its point at `(x, y)` that spans `size` and opens away from the
direction; `width` and `height` are those of its arms. -/
def brace (x y size width height : α) : Direction → List (Stroke α)
  | .left => uprightBrace x y size width height 1
  | .right => uprightBrace x y size width height (-1)
  | .up => levelBrace x y size width height (-1)
  | .down => levelBrace x y size width height 1

end DeckScript.Geometry
