import DeckScript.Assignment
import DeckScript.Literal

/-!
# Loops

A loop's header names a placeholder and where its values come from: a numeric range, a list in
brackets, or the lines of a file. The body is repeated for each value, with the value in place of
the placeholder. Numbers stand for themselves; items and lines are put between double quotes.

## Main definitions

* `Loop.Source`, `Loop.Header` — where values come from, and a loop's header
* `Loop.Header.ofRecord` — reading a header
* `Loop.count`, `Loop.term` — how many values a range has, and each of them
* `Record.bind` — a line with a value in place of the placeholder
-/

namespace DeckScript

namespace Loop

/-- Where a loop's values come from. -/
inductive Source where
  /-- The numbers from one bound to another in equal steps. -/
  | range (first last step : Float)
  /-- The items of a list. -/
  | items (tokens : List String)
  /-- The lines of a file that are not blank. -/
  | file (name : String)
  deriving DecidableEq

/-- A loop's placeholder and where its values come from. -/
structure Header where
  /-- The word that stands for the value in the body. -/
  placeholder : String
  source : Source
  deriving DecidableEq

/-- The finite number that a token writes. -/
def finiteNumber (token : String) : Except Fault Float := do
  let v ← number token
  if v.isFinite then return v else throw (.notANumber token)

/-- The tokens between the brackets of a list. -/
def listItems (r : Record) : List String := (r.argsFrom 4).dropLast

/-- The bounds and the step of a range; the step is one if it is left out. -/
def rangeOfRecord (r : Record) : Except Fault Source := do
  let first ← finiteNumber (r.arg 3)
  let last ← finiteNumber (r.arg 4)
  let step ← if r.length = 6 then finiteNumber (r.arg 5) else pure 1
  -- A step that is zero or below would never pass the last value.
  if 0 < step then return .range first last step else throw (.increment (r.arg 5))

/-- Where the values of a header come from. -/
def Source.ofRecord (r : Record) : Except Fault Source :=
  let token := r.arg 3
  -- A list is known by its brackets, so it may have as many tokens as a range.
  if token = "[" ∧ r.arg (r.length - 1) = "]" then .ok (.items (listItems r))
  else if r.length = 4 ∧ 3 < token.utf8ByteSize ∧ Literal.isEnclosed token then
    match Literal.file? token with
    | some name => .ok (.file name)
    | none => .error (.loopHeader r.tokens)
  else if r.length = 5 ∨ r.length = 6 then rangeOfRecord r
  else .error (.loopHeader r.tokens)

/-- The placeholder and the values of a header. -/
def Header.ofRecord (r : Record) : Except Fault Header :=
  if r.length < 4 ∨ r.arg 2 ≠ "=" then .error (.loopHeader r.tokens)
  else (Source.ofRecord r).map fun source => ⟨r.arg 1, source⟩

/-- The largest count. -/
def maxCount : Nat := UInt64.size - 1

/-- How many values a range has: one more than the whole steps that fit into it, at most
`maxCount`, and none if the range is empty. `whole` gives the whole part of a number. -/
def count {α : Type} [LE α] [DecidableLE α] [Sub α] [Div α] (whole : α → Nat)
    (first last step : α) : Nat :=
  if first ≤ last then min (whole ((last - first) / step) + 1) maxCount else 0

/-- Value number `k` of a range, from zero. -/
def term {α : Type} [Add α] [Mul α] (ofNat : Nat → α) (first step : α) (k : Nat) : α :=
  first + ofNat k * step

/-- The whole part of a number: toward zero, no less than zero and at most `maxCount`. -/
def wholePart (v : Float) : Nat := v.toUInt64.toNat

/-- How many values a range of numbers has. -/
def floatCount (first last step : Float) : Nat := count wholePart first last step

/-- Value number `k` of a range of numbers, as it stands in the body. -/
def rangeValue (first step : Float) (k : Nat) : String :=
  Number.text (term Float.ofNat first step k)

end Loop

/-- A line with `value` in place of each token, and of each word of its text, that is the
placeholder. The words of the text are set off by single blanks. -/
def Record.bind (r : Record) (placeholder value : String) : Record :=
  let put := fun word => if word = placeholder then value else word
  ⟨r.line, r.tokens.map put, " ".intercalate ((Text.fields r.text).map put)⟩

end DeckScript
