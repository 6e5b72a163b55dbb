import DeckScript.Directive.Basic

/-!
# Images

The directives that place images, with and without a caption.

## Main definitions

* `Directive.imageEntries` — the keywords of this family
-/

namespace DeckScript.Directive

open Markup

/-- The optional arguments of an image: its scale and its link. -/
def imageClause : Clause := [("scale", .quoted), ("link", .verbatim)]

/-- An image. -/
def image : Directive :=
  element (.between 6 8) "\"image-file\" x y w h [scale] [link]" fun r =>
    .tag "image"
      (verbatim "name" (r.arg 1) ::
        quotedArgs r 2 ["xp", "yp", "width", "height"] ++ imageClause.fill (r.argsFrom 6))
      none .empty

/-- An image with a caption, which keeps its delimiters. -/
def captionedImage : Directive :=
  element (.between 7 9) "\"image-file\" \"caption\" x y w h [scale] [link]" fun r =>
    .tag "image"
      (verbatim "name" (r.arg 1) :: verbatim "caption" (escape (r.arg 2)) ::
        quotedArgs r 3 ["xp", "yp", "width", "height"] ++ imageClause.fill (r.argsFrom 7))
      none .empty

/-- The keywords of images. -/
def imageEntries : List (String × Directive) :=
  [("image", image), ("cimage", captionedImage)]

end DeckScript.Directive
