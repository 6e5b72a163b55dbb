import DeckScript.Fault
import DeckScript.Literal
import DeckScript.Token.Record

/-!
# Arguments

Directives that calculate read numbers from the tokens of their line, and directives that open a
file read its name. A token that is not what it has to be is the directive's fault.

## Main definitions

* `number` — the number that a token writes
* `operand` — the number that a token or the variable of that name writes
* `fileName` — the file name that a token holds
* `Record.number`, `Record.numberD`, `Record.argD` — arguments of a line
-/

namespace DeckScript

/-- The number that a token writes. -/
def number (token : String) : Except Fault Float :=
  match Number.parse? token with
  | some v => .ok v
  | none => .error (.notANumber token)

/-- The number that a token or the variable of that name writes. -/
def operand (store : Store) (token : String) : Except Fault Float :=
  match Number.parse? (store.resolve token) with
  | some v => .ok v
  | none => .error (.notANumber token)

/-- The file name that a token holds. -/
def fileName (token : String) : Except Fault String :=
  match Literal.file? token with
  | some name => .ok name
  | none => .error (.fileName token)

namespace Record

/-- Token number `i` as a number. -/
def number (r : Record) (i : Nat) : Except Fault Float := DeckScript.number (r.arg i)

/-- Token number `i` as a number, or a value that stands in for a token that is left out. -/
def numberD (r : Record) (i : Nat) (value : Float) : Except Fault Float :=
  match r.arg? i with
  | some token => DeckScript.number token
  | none => .ok value

/-- Token number `i`, or a text that stands in for a token that is left out. -/
def argD (r : Record) (i : Nat) (value : String) : String := (r.arg? i).getD value

end Record

end DeckScript
