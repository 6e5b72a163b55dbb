import DeckScript.Proofs.Coupling

/-!
# Two runs in lockstep

Two runs are in lockstep if related states have the same files and the same random stream, and the
same commands have been run. Then they read, draw and are printed the same without further
conditions.

## Main definitions

* `Lockstep` — what a relation on states with the same files and random stream has to satisfy,
  together with one on outcomes

## Main results

* `Lockstep.coupling` — such relations keep two runs in step
-/

namespace DeckScript

variable {φ : Type} [FileStore φ]

/-- What the relations `S` on states and `O` on outcomes have to satisfy for two runs to stay in
step if related states have the same files and the same random stream, and programs have been run
with the same commands. -/
structure Lockstep (env : Environment) (N : Nat → Nat → Prop) (S : World φ → World φ → Prop)
    (O : Outcome φ → Outcome φ → Prop) : Prop extends Accord env N S O where
  random {w v : World φ} : S w v → w.random = v.random
  files {w v : World φ} : S w v → w.files = v.files
  calls {w v : World φ} : S w v → w.calls = v.calls
  assign {w v : World φ} : S w v → ∀ store random,
    S { w with store, random } { v with store, random }
  save {w v : World φ} : S w v → ∀ files, S { w with files } { v with files }

namespace Lockstep

variable {env : Environment} {N : Nat → Nat → Prop} {S : World φ → World φ → Prop}
  {O : Outcome φ → Outcome φ → Prop} (h : Lockstep env N S O)
include h

theorem setStore {w v : World φ} (hS : S w v) (store : Store) :
    S { w with store } { v with store } := by
  have hw : { w with store, random := v.random } = { w with store } := by rw [← h.random hS]
  exact hw ▸ h.assign hS store v.random

theorem runAssignment (r : Record) {w v : World φ} (hS : S w v) :
    (runAssignment r w).InStep N O (runAssignment r v) := by
  rw [DeckScript.runAssignment, DeckScript.runAssignment, h.store hS, h.random hS]
  by_cases hassign : r.isAssignment
  · rw [if_pos hassign, if_pos hassign]
    cases DeckScript.assign v.store v.random r with
    | error fault => exact h.inStep_fault hS fault
    | ok after => exact Attempt.inStep_outcome (h.finished (h.assign hS after.1 after.2))
  · rw [if_neg hassign, if_neg hassign]
    by_cases hcompound : r.isCompound
    · rw [if_pos hcompound, if_pos hcompound]
      cases assignCompound v.store r with
      | error fault => exact h.inStep_fault hS fault
      | ok store => exact Attempt.inStep_outcome (h.finished (h.assign hS store v.random))
    · rw [if_neg hcompound, if_neg hcompound]
      exact Attempt.inStep_outcome (h.finished hS)

theorem replaceFile (name contents : String) {w v : World φ} (hS : S w v) :
    (w.replaceFile name contents).InStep N O (v.replaceFile name contents) := by
  rw [World.replaceFile, World.replaceFile, World.save?, World.save?, h.files hS]
  cases FileStore.write v.files name contents with
  | error reason => exact h.inStep_fault (h.note hS _) _
  | ok files => exact Attempt.inStep_outcome (h.finished (h.save (h.note hS _) files))

/-- Whoever has the same files reads the same, programs included, and so no run is ever lost. -/
theorem coupling : Coupling env N S O where
  toAccord := h.toAccord
  set hS store := h.setStore hS store
  assign hS r := h.runAssignment r hS
  read hS _ := .inl (by rw [h.files hS])
  save hS name contents := h.replaceFile name contents hS
  call hS _ := .inl (by rw [World.call?, World.call?, h.files hS, h.calls hS])

end Lockstep

end DeckScript
