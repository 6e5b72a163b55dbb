import DeckScript.Fault

/-!
# Reports

A report lists the faults of a run in the order in which they arose, each with its place.

## Main definitions

* `Diagnostic` — a fault, its line and its file
* `Report` — the diagnostics of a run
* `Report.verdict` — success, or the last diagnostic
-/

namespace DeckScript

/-- A fault and its place. -/
structure Diagnostic where
  /-- The number of the line, from one. -/
  line : Nat
  /-- The included file that the line belongs to; none for the script itself. -/
  file : Option String
  fault : Fault
  deriving DecidableEq

/-- The text of a diagnostic. -/
def Diagnostic.text (d : Diagnostic) : String :=
  (match d.file with
    | some file => file ++ ": "
    | none => "") ++ "line " ++ toString d.line ++ ": " ++ d.fault.message

/-- The diagnostics of a run in order. -/
structure Report where
  diagnostics : Array Diagnostic
  deriving DecidableEq

namespace Report

/-- The report without diagnostics. -/
def empty : Report := ⟨#[]⟩

instance : EmptyCollection Report := ⟨empty⟩

/-- The diagnostics of a report in order. -/
def toList (r : Report) : List Diagnostic := r.diagnostics.toList

/-- The report with one more diagnostic at its end. -/
def push (r : Report) (d : Diagnostic) : Report := ⟨r.diagnostics.push d⟩

@[simp] theorem toList_empty : empty.toList = [] := rfl

@[simp] theorem toList_push (r : Report) (d : Diagnostic) :
    (r.push d).toList = r.toList ++ [d] := by
  simp [push, toList]

/-- The number of diagnostics. -/
def size (r : Report) : Nat := r.diagnostics.size

/-- There are no diagnostics. -/
def isEmpty (r : Report) : Bool := r.diagnostics.isEmpty

/-- The last diagnostic. -/
def last? (r : Report) : Option Diagnostic := r.diagnostics.back?

/-- The run succeeded if it has no diagnostics; else the last of them stands for all. -/
def verdict (r : Report) : Except Diagnostic Unit :=
  match r.last? with
  | none => .ok ()
  | some d => .error d

end Report

end DeckScript
