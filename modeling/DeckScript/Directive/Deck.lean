import DeckScript.Directive.Basic

/-!
# The frame of a deck

The directives that open and close a deck, its slides and its lists, set the size of the canvas and
take in other scripts.

## Main definitions

* `Directive.deckEntries` — the keywords of this family
-/

namespace DeckScript.Directive

open Markup

/-- The start of the deck. -/
def deck : Directive := element .any "" fun _ => .tag "deck" [] none .opening

/-- The end of the named element. -/
def closing (name : String) : Directive := element .any "" fun _ => .closing name

/-- The size of the canvas. -/
def canvas : Directive :=
  element (.exactly 3) "width height" fun r =>
    .tag "canvas" (quotedArgs r 1 ["width", "height"]) none .empty

/-- The start of a slide, with its background and foreground if they are given. -/
def slide : Directive :=
  element (.between 1 3) "[bgcolor] [fgcolor]" fun r =>
    .tag "slide" (["bg", "fg"].zip (r.argsFrom 1) |>.map fun p => verbatim p.1 p.2) none .opening

/-- Another script in this place. -/
def inclusion : Directive :=
  ⟨.exactly 2, "\"file\"", .request fun _ r => (fileName (r.arg 1)).map .enter⟩

/-- The keywords of the frame. -/
def deckEntries : List (String × Directive) :=
  [("deck", deck), ("edeck", closing "deck"), ("eslide", closing "slide"),
   ("elist", closing "list"), ("canvas", canvas), ("slide", slide), ("include", inclusion)]

end DeckScript.Directive
