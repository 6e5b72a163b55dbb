import DeckScript.Directive.External
import DeckScript.Loop
import DeckScript.Script.Data

/-!
# The faults of readings

A line reads its arguments one after the other, and the first reading that fails gives the line its
fault. So what is known of the faults of single readings is known of the fault of the line. Here is
what single readings may end with.

## Main definitions

* `FaultsOnly` — every fault of a reading has a property

## Main results

* `FaultsOnly.bind` — a property of two readings in a row
* `faultsOnly_number`, `faultsOnly_operand`, `faultsOnly_finiteNumber`, `faultsOnly_fileName` — the
  faults of reading a number, a bound and a file name
-/

namespace DeckScript

/-- Every fault that the reading ends with has a property. -/
def FaultsOnly (P : Fault → Prop) {α : Type} (x : Except Fault α) : Prop :=
  ∀ f, x = .error f → P f

namespace FaultsOnly

variable {P Q : Fault → Prop} {α β : Type}

theorem ok (a : α) : FaultsOnly P (.ok a : Except Fault α) := by
  intro f h
  cases h

theorem error {f : Fault} (h : P f) : FaultsOnly P (.error f : Except Fault α) := by
  intro g hfault
  cases hfault
  exact h

theorem mono {x : Except Fault α} (h : FaultsOnly P x) (hPQ : ∀ f, P f → Q f) : FaultsOnly Q x :=
  fun f hfault => hPQ f (h f hfault)

/-- Of two readings in a row the first one that fails gives the fault. -/
theorem bind {x : Except Fault α} {f : α → Except Fault β} (hx : FaultsOnly P x)
    (hf : ∀ a, FaultsOnly P (f a)) : FaultsOnly P (x >>= f) := by
  intro fault h
  cases x with
  | error g =>
    cases h
    exact hx fault rfl
  | ok a => exact hf a fault h

theorem map {x : Except Fault α} (hx : FaultsOnly P x) (f : α → β) : FaultsOnly P (x.map f) := by
  intro fault h
  cases x with
  | error g =>
    cases h
    exact hx fault rfl
  | ok a => cases h

end FaultsOnly

/-! ## Single readings -/

theorem faultsOnly_number (token : String) :
    FaultsOnly (fun f => f = .notANumber token ∧ Number.parse? token = none) (number token) := by
  rw [number]
  cases hread : Number.parse? token with
  | some v => exact .ok v
  | none => exact .error ⟨rfl, rfl⟩

theorem faultsOnly_operand (store : Store) (token : String) :
    FaultsOnly (fun f => f = .notANumber token ∧ Number.parse? (store.resolve token) = none)
      (operand store token) := by
  rw [operand]
  cases hread : Number.parse? (store.resolve token) with
  | some v => exact .ok v
  | none => exact .error ⟨rfl, rfl⟩

/-- A bound is refused that is no number, and one that is not finite. -/
theorem faultsOnly_finiteNumber (token : String) :
    FaultsOnly
      (fun f => f = .notANumber token ∧ ∀ v, Number.parse? token = some v → v.isFinite = false)
      (Loop.finiteNumber token) := by
  rw [Loop.finiteNumber, number]
  cases hread : Number.parse? token with
  | none => exact .error ⟨rfl, nofun⟩
  | some v =>
    change FaultsOnly _ (if v.isFinite then .ok v else .error (Fault.notANumber token))
    split
    · exact .ok v
    · rename_i hfinite
      refine .error ⟨rfl, ?_⟩
      rintro _ ⟨⟩
      rwa [Bool.not_eq_true] at hfinite

theorem faultsOnly_fileName (token : String) :
    FaultsOnly (· = .fileName token) (fileName token) := by
  rw [fileName]
  split
  · exact .ok _
  · exact .error rfl

theorem faultsOnly_calculate (op : Operator) (x y : Float) :
    FaultsOnly (· = .divisionByZero x y) (calculate op x y) := by
  cases op with
  | divide =>
    rw [calculate]
    split
    · exact .error rfl
    · exact .ok _
  | add | subtract | multiply => exact .ok _

/-- The header of a data block is refused with a fault of the same class, whatever is wrong. -/
theorem faultsOnly_target (header : Record) :
    FaultsOnly (·.kind = .usage) (Data.target header) := by
  rw [Data.target]
  split
  · refine (faultsOnly_fileName _).mono ?_
    rintro _ rfl
    rfl
  · exact .error rfl

end DeckScript
