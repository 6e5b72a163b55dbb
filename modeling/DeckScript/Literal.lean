import DeckScript.Text.WhiteSpace

/-!
# Literals

A literal token keeps its delimiters until it is used. Each use takes them off in its own way: a
file name needs a double quote at one end, a value of a loop gets double quotes if it has none, and
a word of a chart's command loses a pair of double quotes that encloses anything.

Sizes are counted in bytes.

## Main definitions

* `Literal.inner` — a text without its first and last character
* `Literal.file?` — the name that a file token holds
* `Literal.requote` — a text between double quotes
* `Literal.bare` — a word without the double quotes around it
-/

namespace DeckScript.Literal

/-- The text begins with a double quote. -/
def opens (s : String) : Bool := s.toList.head? = some '"'

/-- The text ends with a double quote. -/
def closes (s : String) : Bool := s.toList.getLast? = some '"'

/-- The text begins and ends with a double quote; one quote may do both. -/
def isEnclosed (s : String) : Bool := opens s && closes s

/-- A text without its first and last character. -/
def inner (s : String) : String := String.ofList (s.toList.drop 1).dropLast

/-- The name that a file token holds: what stands between its ends, if a double quote stands at one
of them. -/
def file? (token : String) : Option String :=
  if token.utf8ByteSize < 3 ∨ !(opens token || closes token) then none else some (inner token)

/-- A text between double quotes; the ones that already enclose it are not doubled. -/
def requote (item : String) : String :=
  "\"" ++ (if 2 ≤ item.utf8ByteSize ∧ isEnclosed item then inner item else item) ++ "\""

/-- A word without the double quotes that enclose it, if it holds more than them. -/
def bare (word : String) : String :=
  if 2 < word.utf8ByteSize ∧ isEnclosed word then inner word else word

end DeckScript.Literal
