import DeckScript.Number

/-!
# Faults

A fault is the reason why a directive could not be carried out. The script goes on after it, so a
fault is recorded with the line that raised it.

## Main definitions

* `FaultKind` — the classes of faults
* `Fault` — the reasons, with what their messages mention
* `Fault.kind`, `Fault.message` — the class and the wording of a fault
-/

namespace DeckScript

/-- The classes of faults. -/
inductive FaultKind where
  /-- A wrong number or shape of arguments. -/
  | usage
  /-- An argument that has to be a number and is none. -/
  | number
  /-- A calculation without a result. -/
  | arithmetic
  /-- A file that cannot be read or written. -/
  | resource
  /-- A program that cannot be run or fails. -/
  | process
  deriving DecidableEq, Repr

namespace FaultKind

/-- The name of a class. -/
def name : FaultKind → String
  | usage => "usage"
  | number => "number"
  | arithmetic => "arithmetic"
  | resource => "resource"
  | process => "process"

/-- All classes. -/
def all : List FaultKind := [usage, number, arithmetic, resource, process]

/-- The class of a name. -/
def ofName? (s : String) : Option FaultKind := all.find? fun k => k.name = s

end FaultKind

/-- Why a directive was not carried out. -/
inductive Fault where
  /-- The keyword does not take this many tokens. -/
  | arity (keyword synopsis : String)
  /-- A token that names no file stands where a file name has to. -/
  | fileName (token : String)
  /-- A data block's header is not a keyword and a file name. -/
  | dataHeader
  /-- No form of assignment has this many tokens. -/
  | assignment (tokens : List String)
  /-- The operator between two operands is none. -/
  | operation
  /-- The word for polar coordinates is missing. -/
  | polar
  /-- The word for carrying a value over is missing. -/
  | rescaling
  /-- The operator of a compound assignment is none. -/
  | compound
  /-- A loop's header has no values. -/
  | loopHeader (tokens : List String)
  /-- A loop's increment does not rise. -/
  | increment (token : String)
  /-- A token that is no number stands where a number has to. -/
  | notANumber (token : String)
  /-- A token is no angle of at most a full turn. -/
  | rotation (token : String)
  /-- A number is divided by zero. -/
  | divisionByZero (dividend divisor : Float)
  /-- A file is included deeper than the limit. -/
  | depth (name : String) (limit : Nat)
  /-- A file cannot be read or written. -/
  | file (name reason : String)
  /-- A chart's program failed. -/
  | chart (command : List String) (reason : String)
  /-- A keyword that is not part of the language has a fault of its own. -/
  | custom (kind : FaultKind) (message : String)
  deriving DecidableEq

namespace Fault

/-- The class of a fault. -/
def kind : Fault → FaultKind
  | arity .. | fileName _ | dataHeader | assignment _ | operation | polar | rescaling | compound
  | loopHeader _ | increment _ => .usage
  | notANumber _ | rotation _ => .number
  | divisionByZero .. => .arithmetic
  | depth .. | file .. => .resource
  | chart .. => .process
  | custom k _ => k

/-- Texts with one blank between each two. -/
def spaced (words : List String) : String := " ".intercalate words

/-- The wording of a fault. -/
def message : Fault → String
  | arity keyword synopsis => keyword ++ " " ++ synopsis
  | fileName token => token ++ " is not a valid filename"
  | dataHeader => "data \"file\"...edata"
  | assignment tokens => "illegal assignment: " ++ spaced tokens
  | operation => "id = operand op operand"
  | polar => "use: x = polar[x|y] cx cy r theta"
  | rescaling => "use: v = vmap data min1 max1 min2 max2"
  | compound => "id += number, id -= number, id *= number or id /= number"
  | loopHeader tokens => "incorrect for loop: " ++ spaced tokens
  | increment token => "for loop increment must be positive, got " ++ token
  | notANumber token => token ++ " is not a number"
  | rotation token => token ++ " is not a valid rotation angle"
  | divisionByZero dividend divisor =>
    "you cannot divide by zero (" ++ Number.text dividend ++ " / " ++ Number.text divisor ++ ")"
  | depth name limit => name ++ ": include nesting deeper than " ++ toString limit
  | file name reason => name ++ ": " ++ reason
  | chart command reason => "[" ++ spaced command ++ "] - " ++ reason
  | custom _ message => message

end Fault

end DeckScript
