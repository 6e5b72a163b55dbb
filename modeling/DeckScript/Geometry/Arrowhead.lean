import DeckScript.Geometry.Point

/-!
# Arrowheads

An arrowhead is a quadrilateral: its tip, one barb, the notch where the shaft joins, and the other
barb. The head of a straight arrow is turned along the shaft; the heads of curved arrows point
along an axis.

## Main definitions

* `Direction` — left, right, up or down
* `Arrowhead` — the four corners
* `Arrowhead.along` — the head of a straight arrow
* `Arrowhead.axial` — a head that points in a direction
-/

namespace DeckScript.Geometry

/-- The ways along the axes. -/
inductive Direction where
  | left | right | up | down
  deriving DecidableEq, Repr

/-- The direction that a word's first letter names. -/
def Direction.ofWord? (word : String) : Option Direction :=
  match word.toList.head? with
  | some 'l' => some .left
  | some 'r' => some .right
  | some 'u' => some .up
  | some 'd' => some .down
  | _ => none

/-- The corners of an arrowhead. -/
structure Arrowhead (α : Type) where
  tip : Point α
  left : Point α
  notch : Point α
  right : Point α
  deriving DecidableEq, Repr

namespace Arrowhead

/-- The corners in the order in which the outline passes them. -/
def points {α : Type} (a : Arrowhead α) : List (Point α) := [a.tip, a.left, a.notch, a.right]

/-- How deep the notch of a head lies, as a share of the head's length. -/
def notchDepth : Float := 0.75

/-- The head of the arrow from one point to another, with the head's width and height. -/
def along (x₁ y₁ x₂ y₂ width height : Float) : Arrowhead Float :=
  let (r, t) := toPolar x₁ y₁ x₂ y₂
  let n := r - width * notchDepth
  let (_, turn) := toPolar x₁ y₁ (x₁ + n) (y₁ + height / 2)
  { tip := polar x₁ y₁ r t
    left := polar x₁ y₁ (r - width) (t + turn)
    notch := polar x₁ y₁ n t
    right := polar x₁ y₁ (r - width) (t - turn) }

variable {α : Type} [Add α] [Sub α] [Mul α] [Div α] [OfNat α 2]

/-- The head with its tip at a point that points in a direction. -/
def axial (x y width height notch : α) : Direction → Arrowhead α
  | .right =>
    ⟨⟨x, y⟩, ⟨x - width, y + height / 2⟩, ⟨x - width * notch, y⟩, ⟨x - width, y - height / 2⟩⟩
  | .left =>
    ⟨⟨x, y⟩, ⟨x + width, y + height / 2⟩, ⟨x + width * notch, y⟩, ⟨x + width, y - height / 2⟩⟩
  | .up =>
    ⟨⟨x, y⟩, ⟨x + width / 2, y - height⟩, ⟨x, y - height * notch⟩, ⟨x - width / 2, y - height⟩⟩
  | .down =>
    ⟨⟨x, y⟩, ⟨x + width / 2, y + height⟩, ⟨x, y + height * notch⟩, ⟨x - width / 2, y + height⟩⟩

end Arrowhead

end DeckScript.Geometry
