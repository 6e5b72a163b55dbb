import DeckScript.Markup.Quote

/-!
# Attributes and clauses

An attribute's value is written as it is or as a quoted value. A clause is a list of optional
attributes that are filled from the front with whatever arguments are left on a line; a line with
more arguments than the clause has places gets none of them.

## Main definitions

* `Style`, `Attribute` — a name and a value, and how the value is written
* `Attribute.text`, `attributesText` — attributes as they stand in markup
* `Clause`, `Clause.fill` — optional attributes, and the ones that values give
* `appendClause` — a clause behind the head of an element
-/

namespace DeckScript.Markup

/-- How a value is written. -/
inductive Style where
  /-- As it is. -/
  | verbatim
  /-- Between double quotes. -/
  | quoted
  deriving DecidableEq, Repr

/-- A value in a style. -/
def Style.write : Style → String → String
  | .verbatim, value => value
  | .quoted, value => quote value

/-- A name with a value. -/
structure Attribute where
  name : String
  style : Style
  value : String
  deriving DecidableEq, Repr

namespace Attribute

/-- An attribute as it stands in markup. -/
def text (a : Attribute) : String := a.name ++ "=" ++ a.style.write a.value

end Attribute

/-- Attributes as they stand in markup, with a blank between each two. -/
def attributesText (attributes : List Attribute) : String :=
  " ".intercalate (attributes.map Attribute.text)

/-- A list of optional attributes. -/
abbrev Clause := List (String × Style)

namespace Clause

/-- The number of values that a clause takes. -/
def capacity (c : Clause) : Nat := c.length

/-- The attributes that values give in order; none if there are more values than places. -/
def fill (c : Clause) (values : List String) : List Attribute :=
  if c.capacity < values.length then []
  else (c.zip values).map fun p => ⟨p.1.1, p.1.2, p.2⟩

/-- Font, color, opacity and link. -/
def font : Clause :=
  [("font", .verbatim), ("color", .verbatim), ("opacity", .quoted), ("link", .verbatim)]

/-- The same with line spacing and rotation. -/
def spacedFont : Clause :=
  [("font", .verbatim), ("color", .verbatim), ("opacity", .quoted), ("lp", .quoted),
   ("link", .verbatim), ("rotation", .quoted)]

/-- Color and opacity. -/
def fillPaint : Clause := [("color", .verbatim), ("opacity", .quoted)]

/-- Width, color and opacity of a line. -/
def strokePaint : Clause := [("sp", .quoted), ("color", .verbatim), ("opacity", .quoted)]

end Clause

/-- The head of an element with a clause behind it; an empty clause adds nothing. -/
def appendClause (head clause : String) : String :=
  if clause.isEmpty then head else head ++ " " ++ clause

end DeckScript.Markup
