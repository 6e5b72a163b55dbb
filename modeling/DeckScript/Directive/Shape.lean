import DeckScript.Directive.Basic

/-!
# Shapes

The directives for areas, lines and curves whose coordinates are those of the line.

## Main definitions

* `Directive.shapeEntries` — the keywords of this family
-/

namespace DeckScript.Directive

open Markup

/-- A shape with attributes and the clause that the tokens from number `i` on fill. -/
def shapeElement (name : String) (attributes : List Attribute) (clause : Clause) (r : Record)
    (i : Nat) : Element :=
  .tag name (attributes ++ clause.fill (r.argsFrom i)) none .empty

/-- A rectangle or an ellipse. -/
def box (name : String) : Directive :=
  element (.between 5 7) "x y w h [color] [opacity]" fun r =>
    shapeElement name (quotedArgs r 1 ["xp", "yp", "wp", "hp"]) .fillPaint r 5

/-- A rectangle or an ellipse that is as high as it is wide. -/
def evenBox (name : String) : Directive :=
  element (.between 4 6) "x y w [color] [opacity]" fun r =>
    shapeElement name (quotedArgs r 1 ["xp", "yp", "wp"] ++ [quoted "hr" "100"]) .fillPaint r 4

/-- A polygon; its coordinates are two literals. -/
def polygon : Directive :=
  element (.between 3 5) "\"xcoord\" \"ycoord\" [color] [opacity]" fun r =>
    shapeElement "polygon" [verbatim "xc" (r.arg 1), verbatim "yc" (r.arg 2)] .fillPaint r 3

/-- A straight line. -/
def line : Directive :=
  element (.between 5 8) "x1 y1 x2 y2 [size] [color] [opacity]" fun r =>
    shapeElement "line" (quotedArgs r 1 ["xp1", "yp1", "xp2", "yp2"]) .strokePaint r 5

/-- A line of a given length from a point; `finish` gives the line's other end. -/
def measuredLine (finish : Record → Float → Except Fault (String × String)) : Directive :=
  elements (.between 4 7) "x y length [size] [color] [opacity]" fun r => do
    let length ← r.number 3
    let (x, y) ← finish r length
    return [shapeElement "line"
      (quotedArgs r 1 ["xp1", "yp1"] ++ [quoted "xp2" x, quoted "yp2" y]) .strokePaint r 4]

/-- A line to the right. -/
def horizontalLine : Directive :=
  measuredLine fun r length => do return (Number.text ((← r.number 1) + length), r.arg 2)

/-- A line upwards. -/
def verticalLine : Directive :=
  measuredLine fun r length => do return (r.arg 1, Number.text ((← r.number 2) + length))

/-- A part of an ellipse. -/
def arc : Directive :=
  element (.between 7 10) "cx cy w h a1 a2 [size] [color] [opacity]" fun r =>
    shapeElement "arc" (quotedArgs r 1 ["xp", "yp", "wp", "hp", "a1", "a2"]) .strokePaint r 7

/-- A curve with one control point. -/
def curve : Directive :=
  element (.between 7 10) "x1 y1 x2 y2 x3 y3 [size] [color] [opacity]" fun r =>
    shapeElement "curve" (quotedArgs r 1 ["xp1", "yp1", "xp2", "yp2", "xp3", "yp3"]) .strokePaint
      r 7

/-- The keywords of shapes. -/
def shapeEntries : List (String × Directive) :=
  [("rect", box "rect"), ("ellipse", box "ellipse"), ("square", evenBox "rect"),
   ("circle", evenBox "ellipse"), ("polygon", polygon), ("poly", polygon), ("line", line),
   ("hline", horizontalLine), ("vline", verticalLine), ("arc", arc), ("curve", curve)]

end DeckScript.Directive
