import DeckScript.Operand
import DeckScript.Script.Block

/-!
# Data blocks

A data block writes a file of its rows. A row with exactly two words becomes a line of the file,
with a tab between the words; other rows are left out.

## Main definitions

* `Data.row?` — the line that a row becomes
* `Data.contents` — the file that rows make
* `Data.target` — the file that a header names
-/

namespace DeckScript.Data

/-- The line of the file that a row becomes. -/
def row? (text : String) : Option String :=
  match Text.fields text with
  | [label, value] => some (label ++ "\t" ++ value ++ "\n")
  | _ => none

/-- The file that rows make. -/
def contents (rows : List SourceLine) : String :=
  String.join (rows.filterMap fun l => row? l.text)

/-- The file that a header names. -/
def target (header : Record) : Except Fault String :=
  if header.length = 2 then fileName (header.arg 1) else .error .dataHeader

end DeckScript.Data
