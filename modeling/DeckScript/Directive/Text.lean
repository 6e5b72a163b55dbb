import DeckScript.Directive.Basic

/-!
# Text and lists

The directives that place text, blocks of text and lists.

## Main definitions

* `Directive.textEntries` — the keywords of this family
-/

namespace DeckScript.Directive

open Markup

/-- A text with a clause for its font behind its attributes. -/
def textElement (r : Record) (attributes : List Attribute) (i : Nat) : Element :=
  .tag "text" attributes (some (Clause.font.fill (r.argsFrom i))) (.content (shown (r.arg 1)))

/-- A line of text. -/
def text (alignment : List Attribute) : Directive :=
  element (.atLeast 5) "\"text\" x y size [font] [color] [opacity] [link]" fun r =>
    textElement r (alignment ++ quotedArgs r 2 ["xp", "yp", "sp"]) 5

/-- A text that is kept in a file. -/
def textFile : Directive :=
  element (.atLeast 5) "\"file\" x y size [font] [color] [opacity] [lp] [link] [rotation]" fun r =>
    .tag "text" (verbatim "file" (r.arg 1) :: quotedArgs r 2 ["xp", "yp", "sp"])
      (some (Clause.spacedFont.fill (r.argsFrom 5))) .empty

/-- An angle of at most a full turn. -/
def isRotation (token : String) : Bool :=
  match Number.parse? token with
  | some angle => angle ≤ 360
  | none => false

/-- A turned line of text. -/
def rotatedText : Directive :=
  elements (.atLeast 6) "\"text\" x y angle size [font] [color] [opacity] [link]" fun r =>
    if isRotation (r.arg 4) then
      .ok [textElement r (quotedArgs r 2 ["xp", "yp", "rotation", "sp"]) 6]
    else .error (.rotation (r.arg 4))

/-- A text that is wrapped to a width. -/
def textBlock : Directive :=
  element (.atLeast 6) "\"text\" x y width size [font] [color] [opacity] [link]" fun r =>
    textElement r (quoted "type" "block" :: quotedArgs r 2 ["xp", "yp", "wp", "sp"]) 6

/-- Program text that is kept in a file. -/
def textCode : Directive :=
  element (.between 6 7) "\"file\" x y width size [color]" fun r =>
    .tag "text"
      (quoted "type" "code" :: verbatim "file" (r.arg 1) ::
        quotedArgs r 2 ["xp", "yp", "wp", "sp"] ++ (r.argsFrom 6).map (verbatim "color"))
      none .empty

/-- The start of a list. -/
def list (kind : List Attribute) : Directive :=
  element (.atLeast 4) "x y size [font] [color] [opacity] [lp] [link]" fun r =>
    .tag "list" (kind ++ quotedArgs r 1 ["xp", "yp", "sp"])
      (some (Clause.spacedFont.fill (r.argsFrom 4))) .opening

/-- An item of a list. -/
def listItem : Directive :=
  element .any "[\"text\"] [font] [color] [opacity] [link]" fun r =>
    match r.argsFrom 1 with
    | [] => .tag "li" [] none .empty
    | [item] => .tag "li" [] none (.content (shown item))
    | item :: values => .tag "li" [] (some (Clause.font.fill values)) (.content (shown item))

/-- A label and a round key in the label's color to the left of it. -/
def legend : Directive :=
  elements (.atLeast 7) "\"text\" x y size font color" fun r => do
    let x ← r.number 2
    let y ← r.number 3
    return [
      textElement r
        [quoted "xp" (Number.text (x + 2)), quoted "yp" (r.arg 3), quoted "sp" (r.arg 4)] 5,
      .tag "ellipse"
        [quoted "xp" (r.arg 2), quoted "yp" (Number.text (y + 0.5)), quoted "wp" (r.arg 4),
         quoted "hr" "100", verbatim "color" (r.arg 6)]
        none .empty]

/-- The keywords of text and lists. -/
def textEntries : List (String × Directive) :=
  [("text", text []), ("ctext", text [quoted "align" "c"]), ("etext", text [quoted "align" "e"]),
   ("textfile", textFile), ("rtext", rotatedText), ("textblock", textBlock),
   ("textcode", textCode), ("list", list []), ("blist", list [quoted "type" "bullet"]),
   ("nlist", list [quoted "type" "number"]), ("clist", list [quoted "align" "center"]),
   ("li", listItem), ("legend", legend)]

end DeckScript.Directive
