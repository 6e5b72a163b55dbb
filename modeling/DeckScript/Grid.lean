import DeckScript.Number
import DeckScript.Token.Record

/-!
# Grids

A grid gives each line of a file that is not empty a place of its own. The places run from left to
right in equal steps; a place to the right of the limit is moved to the start of the next row.

## Main definitions

* `Grid.Layout` — where a grid starts, its steps and its limit
* `Grid.Cursor` — the place of a line
* `Grid.Layout.wrap`, `Grid.Layout.advance` — from one place to the next
* `Grid.Cursor.cell` — a line with its place put in
-/

namespace DeckScript.Grid

/-- Where a grid starts, the steps from place to place and from row to row, and the rightmost
abscissa. -/
structure Layout where
  x : Float
  y : Float
  xStep : Float
  yStep : Float
  limit : Float
  deriving DecidableEq

/-- The place of a line. -/
structure Cursor where
  x : Float
  y : Float
  deriving DecidableEq

namespace Layout

/-- The first place. -/
def start (l : Layout) : Cursor := ⟨l.x, l.y⟩

/-- A place to the right of the limit is moved to the start of the next row. -/
def wrap (l : Layout) (c : Cursor) : Cursor :=
  if c.x > l.limit then ⟨l.x, c.y - l.yStep⟩ else c

/-- The place to the right. -/
def advance (l : Layout) (c : Cursor) : Cursor := ⟨c.x + l.xStep, c.y⟩

end Layout

namespace Cursor

/-- What a token stands for at a place: the words for the coordinates for their numbers, all else
for itself. -/
def coordinate (c : Cursor) (token : String) : String :=
  if token = "x" then Number.text c.x
  else if token = "y" then Number.text c.y
  else token

/-- A line of the file at its place, as a record of the grid's line. -/
def cell (c : Cursor) (store : Store) (line : Nat) (text : String) : Record :=
  let r := Record.ofLine store line text
  { r with tokens := r.tokens.map c.coordinate }

end Cursor

/-- The least number of tokens of a line that is carried out. -/
def leastTokens : Nat := 3

end DeckScript.Grid
