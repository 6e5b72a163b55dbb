import DeckScript.Markup.Attribute
import DeckScript.Markup.Escape

/-!
# Elements

The markup is a sequence of elements, one to a line.

## Main definitions

* `Ending` — how a tag ends
* `Element` — a tag, a closing tag or a comment
* `Element.text`, `Element.line` — an element as it stands in markup
-/

namespace DeckScript.Markup

/-- How a tag ends. -/
inductive Ending where
  /-- The element has no content. -/
  | empty
  /-- The element's content follows on further lines. -/
  | opening
  /-- The element's content is this text, which is escaped already. -/
  | content (text : String)
  deriving DecidableEq, Repr

/-- One line of markup. -/
inductive Element where
  /-- A tag with its attributes. Some tags have a place for a clause, which a blank sets off even
  if it stays empty. -/
  | tag (name : String) (attributes : List Attribute) (slot : Option (List Attribute))
      (ending : Ending)
  | closing (name : String)
  | comment (text : String)
  deriving DecidableEq, Repr

/-- The end of a tag with the given name. -/
def Ending.text (name : String) : Ending → String
  | .empty => "/>"
  | .opening => ">"
  | .content text => ">" ++ text ++ "</" ++ name ++ ">"

namespace Element

/-- An element as it stands in markup. -/
def text : Element → String
  | tag name attributes slot ending =>
    appendClause ("<" ++ name) (attributesText attributes) ++
      (match slot with
        | none => ""
        | some clause => " " ++ attributesText clause) ++
      ending.text name
  | closing name => "</" ++ name ++ ">"
  | comment text => "<!-- " ++ text ++ " -->"

/-- An element on a line of its own. -/
def line (e : Element) : String := e.text ++ "\n"

end Element

end DeckScript.Markup
