import DeckScript.Literal

/-!
# Text in markup

Three characters have a meaning of their own in markup and are written as entities in text.

## Main definitions

* `Markup.escape` — a text with its reserved characters as entities
* `Markup.shown` — the text between a literal's ends, escaped

## Main results

* `escapeChars_append` — characters are escaped one by one
-/

namespace DeckScript.Markup

/-- A character as it stands in text. -/
def escapeChar (c : Char) : List Char :=
  if c = '&' then "&amp;".toList
  else if c = '<' then "&lt;".toList
  else if c = '>' then "&gt;".toList
  else [c]

/-- Characters as they stand in text. -/
def escapeChars (s : List Char) : List Char := s.flatMap escapeChar

@[simp] theorem escapeChars_nil : escapeChars [] = [] := rfl

@[simp] theorem escapeChars_cons (c : Char) (s : List Char) :
    escapeChars (c :: s) = escapeChar c ++ escapeChars s := rfl

@[simp] theorem escapeChars_append (s t : List Char) :
    escapeChars (s ++ t) = escapeChars s ++ escapeChars t := by simp [escapeChars]

/-- A text with its reserved characters as entities. -/
def escape (s : String) : String := String.ofList (escapeChars s.toList)

/-- What a literal token shows: the escaped text between its first and last character. A token of
less than three bytes shows nothing. -/
def shown (token : String) : String :=
  if token.utf8ByteSize < 3 then "" else escape (Literal.inner token)

end DeckScript.Markup
