import DeckScript.Directive.Basic

/-!
# Grids and charts

The directives that take in the lines of a file or the output of a program.

## Main definitions

* `chartCommand` — the command of a chart
* `Directive.externalEntries` — the keywords of this family
-/

namespace DeckScript

/-- The command of a chart: the words of its line, all but the first of them resolved and without
the double quotes around them, and then split at white space again. -/
def chartCommand (resolve : String → String) (text : String) : List String :=
  match Text.fields text with
  | [] => []
  | program :: words =>
    Text.fields (" ".intercalate (program :: words.map fun w => Literal.bare (resolve w)))

namespace Directive

/-- The number that a token of a grid gives; a fault shows the variable's value. -/
def gridNumber (store : Store) (r : Record) (i : Nat) : Except Fault Float :=
  number (store.resolve (r.arg i))

/-- The lines of a file at places of their own. -/
def grid : Directive :=
  ⟨.atLeast 7, "\"file\" x y xint yint xlimit", .request fun store r => do
    let x ← gridNumber store r 2
    let y ← gridNumber store r 3
    let xStep ← gridNumber store r 4
    let yStep ← gridNumber store r 5
    let limit ← gridNumber store r 6
    let file ← fileName (r.arg 1)
    return .fillGrid file ⟨x, y, xStep, yStep, limit⟩⟩

/-- The output of the program that the keyword names. -/
def chart : Directive :=
  ⟨.any, "[args]", .request fun store r => .ok (.chart (chartCommand store.resolve r.text))⟩

/-- The keywords of grids and charts. -/
def externalEntries : List (String × Directive) :=
  [("grid", grid), ("chart", chart), ("dchart", chart)]

end Directive

end DeckScript
