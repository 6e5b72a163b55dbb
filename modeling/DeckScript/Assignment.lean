import DeckScript.Geometry.Point
import DeckScript.Operand
import DeckScript.Random.Stream

/-!
# Assignments

A line whose second token is `=` assigns to its first token. The number of tokens tells the form:

* three: a value is taken over as it is;
* five: a random number between two bounds, or one operation on two operands;
* seven: a coordinate of a point in polar coordinates;
* eight: a value carried from one range over to another.

A line whose second and third token are an operator and `=` changes a variable by a number.

Operands are numbers or variables that hold numbers. A calculated value is stored as its shortest
text. A number is drawn only once both bounds are known to be numbers.

## Main definitions

* `Record.isAssignment`, `Record.isCompound` — the two kinds of lines
* `Operator`, `calculate` — the four operations
* `assignedValue`, `assign` — the value of an assignment, and the variables after it
* `compoundValue`, `assignCompound` — the same for changing a variable
-/

namespace DeckScript

open DeckScript.Geometry

/-- A line that assigns to its first token. -/
def Record.isAssignment (r : Record) : Bool := 1 < r.length && r.arg 1 = "="

/-- The four operations. -/
inductive Operator where
  | add | subtract | multiply | divide
  deriving DecidableEq, Repr

/-- The operation that a token names. -/
def Operator.ofToken? : String → Option Operator
  | "+" => some .add
  | "-" => some .subtract
  | "*" => some .multiply
  | "/" => some .divide
  | _ => none

/-- A line that changes its first token by a number. -/
def Record.isCompound (r : Record) : Bool :=
  4 ≤ r.length && (Operator.ofToken? (r.arg 1)).isSome && r.arg 2 = "="

/-- The result of an operation. -/
def calculate (op : Operator) (x y : Float) : Except Fault Float :=
  match op with
  | .add => .ok (x + y)
  | .subtract => .ok (x - y)
  | .multiply => .ok (x * y)
  | .divide => if y == 0 then .error (.divisionByZero x y) else .ok (x / y)

/-- The value of a random number between two bounds, and the stream after it. -/
def randomValue (store : Store) (random : RandomStream) (r : Record) :
    Except Fault (String × RandomStream) := do
  let low ← operand store (r.arg 3)
  let high ← operand store (r.arg 4)
  -- From here on nothing can fail, so a faulty line draws nothing.
  let (u, random) := random.draw
  return (Number.text (rescale u 0 1 low high), random)

/-- The value of an operation on two operands. -/
def operationValue (store : Store) (r : Record) : Except Fault String := do
  let x ← operand store (r.arg 2)
  let y ← operand store (r.arg 4)
  match Operator.ofToken? (r.arg 3) with
  | none => throw .operation
  | some op => return Number.text (← calculate op x y)

/-- A coordinate of a point in polar coordinates. -/
def polarValue (store : Store) (r : Record) : Except Fault String := do
  let word := r.arg 2
  if word ≠ "polarx" ∧ word ≠ "polary" then throw .polar
  let cx ← operand store (r.arg 3)
  let cy ← operand store (r.arg 4)
  let radius ← operand store (r.arg 5)
  let theta ← operand store (r.arg 6)
  let p := polar cx cy radius (radians theta)
  return Number.text (if word = "polarx" then p.x else p.y)

/-- A value carried from one range over to another. -/
def rescaledValue (store : Store) (r : Record) : Except Fault String := do
  if r.arg 2 ≠ "vmap" then throw .rescaling
  let value ← operand store (r.arg 3)
  let low₁ ← operand store (r.arg 4)
  let high₁ ← operand store (r.arg 5)
  let low₂ ← operand store (r.arg 6)
  let high₂ ← operand store (r.arg 7)
  return Number.text (rescale value low₁ high₁ low₂ high₂)

/-- The value that an assignment gives, and the random stream after it. -/
def assignedValue (store : Store) (random : RandomStream) (r : Record) :
    Except Fault (String × RandomStream) :=
  match r.length with
  | 3 => .ok (r.arg 2, random)
  | 5 =>
    if r.arg 2 = "random" then randomValue store random r
    else (operationValue store r).map (·, random)
  | 7 => (polarValue store r).map (·, random)
  | 8 => (rescaledValue store r).map (·, random)
  | _ => .error (.assignment r.tokens)

/-- The variables and the random stream after an assignment. -/
def assign (store : Store) (random : RandomStream) (r : Record) :
    Except Fault (Store × RandomStream) :=
  (assignedValue store random r).map fun p => (store.insert r.keyword p.1, p.2)

/-- The value of a variable after it is changed by a number. The number is a literal one. -/
def compoundValue (store : Store) (r : Record) : Except Fault String := do
  let x ← operand store r.keyword
  let y ← number (r.arg 3)
  match Operator.ofToken? (r.arg 1) with
  | none => throw .compound
  | some op => return Number.text (← calculate op x y)

/-- The variables after one is changed by a number. -/
def assignCompound (store : Store) (r : Record) : Except Fault Store :=
  (compoundValue store r).map fun value => store.insert r.keyword value

end DeckScript
