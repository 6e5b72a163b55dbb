import DeckScript.Directive.Arrow
import DeckScript.Directive.Deck
import DeckScript.Directive.External
import DeckScript.Directive.Image
import DeckScript.Directive.Shape
import DeckScript.Directive.Text

/-!
# The standard vocabulary

All keywords of the language that stand for a line of their own. The keywords of loops and data
blocks are not among them, since those take up several lines.

## Main definitions

* `Vocabulary.standard` — the keywords with their directives
* `Vocabulary.sortedKeywords` — the keywords in alphabetical order
-/

namespace DeckScript.Vocabulary

/-- The entries of the standard vocabulary. -/
def standardEntries : List (String × Directive) :=
  Directive.deckEntries ++ Directive.textEntries ++ Directive.imageEntries ++
    Directive.shapeEntries ++ Directive.arrowEntries ++ Directive.externalEntries

/-- The keywords of the language with their directives. -/
def standard : Vocabulary := Table.ofList standardEntries

/-- The keywords of a vocabulary in alphabetical order. -/
def sortedKeywords (v : Vocabulary) : List String := v.keys.mergeSort fun s t => decide (s ≤ t)

end DeckScript.Vocabulary
