import DeckScript.Text.Line
import DeckScript.Text.Utf8

/-!
# Script sources

A script comes as a stream of bytes that ends or breaks off. It is cut into lines before it is read
as text. When the stream breaks off, a line that was not ended is lost.

## Main definitions

* `Source` — the bytes of a script, and why they break off if they do
* `SourceLine` — a numbered line
* `Source.lines` — the lines of a script
-/

namespace DeckScript

/-- The bytes of a script. -/
structure Source where
  bytes : List UInt8
  /-- Why the stream breaks off behind the bytes; none if it ends. -/
  failure : Option String

/-- A line of a script with its number, from one. -/
structure SourceLine where
  number : Nat
  text : String
  deriving DecidableEq, Repr

namespace Source

/-- A script held as text. -/
def ofText (text : String) : Source := ⟨text.toByteArray.toList, none⟩

/-- The lines of a script as bytes. -/
def byteLines (s : Source) : List (List UInt8) :=
  match s.failure with
  -- Bytes are cut before they are read as text; a break is one byte in any text.
  | none => Text.allLines 0x0A 0x0D s.bytes
  | some _ => Text.closedLines 0x0A 0x0D s.bytes

/-- The numbered lines of a script. -/
def lines (s : Source) : List SourceLine :=
  (s.byteLines.zipIdx 1).map fun p => ⟨p.2, Text.Utf8.decode p.1⟩

end Source

end DeckScript
