import DeckScript.Directive.Basic
import DeckScript.Geometry.Brace

/-!
# Arrows and braces

The directives whose strokes are computed from numbers. An arrow is a shaft that ends at the notch
of its head, and the head. A brace is its six strokes.

## Main definitions

* `Directive.arrowEntries` — the keywords of this family
-/

namespace DeckScript.Directive

open DeckScript.Geometry Markup

/-- The width and the height of a head that are used if none are given. -/
def headSize : Float := 3

/-- How an arrow's shaft and head are drawn. -/
structure ArrowPaint where
  width : String
  color : String
  opacity : String

namespace ArrowPaint

/-- The paint that a line gives: its tokens number `i`, `i + 3` and `i + 4`, or what is used if
they are left out. -/
def ofRecord (r : Record) (i : Nat) : ArrowPaint :=
  ⟨r.argD i "0.2", r.argD (i + 3) "\"gray\"", r.argD (i + 4) "100"⟩

/-- The attributes of the head. -/
def head (p : ArrowPaint) : List Attribute := [verbatim "color" p.color, quoted "opacity" p.opacity]

/-- The attributes of the shaft. -/
def shaft (p : ArrowPaint) : List Attribute := quoted "sp" p.width :: p.head

end ArrowPaint

/-- The numbers of a list with a blank between each two. -/
def coordinates (values : List Float) : String := " ".intercalate (values.map Number.text)

/-- The polygon of a head. -/
def headElement (head : Arrowhead Float) (paint : ArrowPaint) : Element :=
  .tag "polygon"
    (quoted "xc" (coordinates (head.points.map (·.x))) ::
      quoted "yc" (coordinates (head.points.map (·.y))) :: paint.head)
    none .empty

/-- A shaft to the notch of a head, and the head. -/
def arrowElements (name : String) (start : List Attribute) (xEnd yEnd : String)
    (head : Arrowhead Float) (paint : ArrowPaint) : List Element :=
  [.tag name
    (start ++ [quoted xEnd (Number.text head.notch.x), quoted yEnd (Number.text head.notch.y)] ++
      paint.shaft)
    none .empty,
   headElement head paint]

/-- A straight arrow. -/
def arrow : Directive :=
  elements (.atLeast 5) "x1 y1 x2 y2 [linewidth] [arrowidth] [arrowheight] [color] [opacity]"
    fun r => do
      let x₁ ← r.number 1
      let y₁ ← r.number 2
      let x₂ ← r.number 3
      let y₂ ← r.number 4
      let width ← r.numberD 6 headSize
      let height ← r.numberD 7 headSize
      return arrowElements "line" (quotedArgs r 1 ["xp1", "yp1"]) "xp2" "yp2"
        (Arrowhead.along x₁ y₁ x₂ y₂ width height) (ArrowPaint.ofRecord r 5)

/-- A curved arrow whose head points in a direction. -/
def curvedArrow (direction : Direction) : Directive :=
  elements (.atLeast 7)
    "x1 y1 x2 y2 x3 y3 [linewidth] [arrowidth] [arrowheight] [color] [opacity]"
    fun r => do
      let x ← r.number 5
      let y ← r.number 6
      let width ← r.numberD 8 headSize
      let height ← r.numberD 9 headSize
      return arrowElements "curve" (quotedArgs r 1 ["xp1", "yp1", "xp2", "yp2"]) "xp3" "yp3"
        (Arrowhead.axial x y width height Arrowhead.notchDepth direction)
        (ArrowPaint.ofRecord r 7)

/-- A point of a brace, with two places. -/
def placedPoint (suffix : String) (p : Point Float) : List Attribute :=
  [quoted ("xp" ++ suffix) (Number.fixed 2 p.x), quoted ("yp" ++ suffix) (Number.fixed 2 p.y)]

/-- A stroke of a brace. -/
def strokeElement (paint : List Attribute) : Stroke Float → Element
  | .curve p q r =>
    .tag "curve" (placedPoint "1" p ++ placedPoint "2" q ++ placedPoint "3" r) (some paint) .empty
  | .line p q => .tag "line" (placedPoint "1" p ++ placedPoint "2" q) (some paint) .empty

/-- The optional arguments of a brace: its width, its color and its opacity. The first and the last
of them have to be numbers. -/
def bracePaint (r : Record) : Except Fault (List Attribute) := do
  -- Their text is written as it stands; only that they are numbers matters.
  let _ ← r.numberD 6 0
  let _ ← r.numberD 8 0
  return Clause.strokePaint.fill ((r.argsFrom 6).take Clause.strokePaint.capacity)

/-- A brace that points in a direction. -/
def braceShape (direction : Direction) : Directive :=
  elements (.atLeast 6) "x y size aw ah [linewidth] [color] [opacity]" fun r => do
    let x ← r.number 1
    let y ← r.number 2
    let size ← r.number 3
    let width ← r.number 4
    let height ← r.number 5
    let paint ← bracePaint r
    return (brace x y size width height direction).map (strokeElement paint)

/-- The keywords of arrows and braces. -/
def arrowEntries : List (String × Directive) :=
  [("arrow", arrow), ("lcarrow", curvedArrow .left), ("rcarrow", curvedArrow .right),
   ("ucarrow", curvedArrow .up), ("dcarrow", curvedArrow .down), ("lbrace", braceShape .left),
   ("rbrace", braceShape .right), ("ubrace", braceShape .up), ("dbrace", braceShape .down)]

end DeckScript.Directive
