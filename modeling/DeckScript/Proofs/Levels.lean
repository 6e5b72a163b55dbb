import DeckScript.Proofs.Lockstep

/-!
# Levels of nested records

The number of levels decides only whether a run gets to its end. A run that does not exhaust its
levels is the same with any larger number of them.

## Main definitions

* `Outcome.isExhausted` — records were nested deeper than the run allows
* `Unless` — the first outcome is exhausted or is the second one

## Main results

* `lockstep_unless` — runs with different numbers of levels are in lockstep
* `dispatch_unless`, `runBlocks_unless` — with more levels nothing changes but an exhausted outcome
* `compile_eq_of_le` — a compilation that ends does the same with more levels
-/

namespace DeckScript

variable {φ : Type}

namespace Outcome

/-- Steps were nested deeper than the run allows. -/
def isExhausted : Outcome φ → Bool
  | exhausted _ => true
  | _ => false

@[simp] theorem isExhausted_finished (w : World φ) : (finished w).isExhausted = false := rfl

@[simp] theorem isExhausted_refused (w : World φ) : (refused w).isExhausted = false := rfl

@[simp] theorem isExhausted_exhausted (w : World φ) : (exhausted w).isExhausted = true := rfl

@[simp] theorem isExhausted_map (f : World φ → World φ) (o : Outcome φ) :
    (o.map f).isExhausted = o.isExhausted := by cases o <;> rfl

@[simp] theorem isExhausted_settle_outcome (line : Nat) (o : Outcome φ) :
    ((Attempt.outcome o).settle line).isExhausted = o.isExhausted := rfl

/-- What comes after a step that is exhausted is not reached. -/
theorem isExhausted_andThen {o : Outcome φ} (ho : o.isExhausted) (f : Step φ) :
    (o.andThen f).isExhausted := by
  cases o with
  | exhausted w => rfl
  | finished w | refused w => cases ho

end Outcome

/-- The first outcome is exhausted, or it is the second one. -/
def Unless (o p : Outcome φ) : Prop := o.isExhausted ∨ o = p

theorem Unless.refl (o : Outcome φ) : Unless o o := .inr rfl

theorem Unless.eq {o p : Outcome φ} (h : Unless o p) (ho : o.isExhausted = false) : p = o := by
  rcases h with h | h
  · rw [ho] at h; cases h
  · exact h.symm

/-- Who is exhausted with more levels is exhausted with fewer. -/
theorem Unless.isExhausted {o p : Outcome φ} (h : Unless o p) (hp : p.isExhausted) :
    o.isExhausted := by
  rcases h with h | rfl
  · exact h
  · exact hp

theorem Unless.andThen {o p : Outcome φ} {f g : Step φ} (h : Unless o p)
    (hfg : ∀ w, Unless (f w) (g w)) : Unless (o.andThen f) (p.andThen g) := by
  rcases h with h | rfl
  · exact .inl (Outcome.isExhausted_andThen h f)
  · cases o with
    | finished w => exact hfg w
    | refused w | exhausted w => exact .refl _

variable [FileStore φ]

/-- Two runs from the same state stay together unless the first one is exhausted. -/
theorem lockstep_unless (env : Environment) :
    Lockstep env Eq Eq (Unless : Outcome φ → Outcome φ → Prop) where
  number _ := rfl
  ask _ _ _ hrs _ := by rw [hrs.eq]
  store h := by rw [h]
  random h := by rw [h]
  files h := by rw [h]
  calls h := by rw [h]
  assign h _ _ := by rw [h]
  save h _ := by rw [h]
  note h _ := by rw [h]
  trace h hN _ := by rw [h, hN]
  blame h hN _ := by rw [h, hN]
  enter h _ := by rw [h]
  leave h _ _ := by
    rcases h with h | rfl
    · exact .inl ((Outcome.isExhausted_map _ _).trans h)
    · exact .refl _
  shallow h := by rw [h]; exact id
  deep h := by rw [h]; exact .inl
  finished h := by rw [h]; exact .refl _
  write h _ := by rw [h]; exact .refl _
  andThen _ _ h hfg := h.andThen fun w => hfg w w rfl

section Levels

variable (env : Environment) {n m : Nat} (h : n ≤ m)
include h

theorem inStep_dispatch {r s : Record} (hrs : r.Alike Eq s) :
    InStep Eq Unless (dispatch env n r : Step φ) (dispatch env m s) := by
  induction n generalizing m r s with
  | zero =>
    refine ⟨advances_dispatch env 0 r, advances_dispatch env m s, fun _ => .inl ?_⟩
    rw [dispatch_zero, Outcome.isExhausted_exhausted]
  | succ n ih =>
    obtain ⟨k, rfl⟩ : ∃ k, m = k + 1 := ⟨m - 1, by omega⟩
    exact (lockstep_unless env).coupling.dispatch_succ (ih (by omega)) hrs

/-- With more levels, a record that did not exhaust them is carried out the same. -/
theorem dispatch_unless (r : Record) (w : World φ) :
    Unless (dispatch env n r w) (dispatch env m r w) :=
  (inStep_dispatch env h (.refl (fun _ => rfl) r)).related rfl

theorem runCell_unless (line : Nat) (place : Grid.Cursor × String) (w : World φ) :
    Unless (runCell (dispatch env n) line place w) (runCell (dispatch env m) line place w) :=
  ((lockstep_unless env).coupling.runCell (inStep_dispatch env h) rfl place).related rfl

theorem runBlock_unless (b : Block) (w : World φ) :
    Unless (runBlock (dispatch env n) b w) (runBlock (dispatch env m) b w) :=
  ((lockstep_unless env).coupling.runBlock (inStep_dispatch env h)
    (.refl (fun _ => rfl) b)).related rfl

theorem runBlocks_unless (bs : List Block) (w : World φ) :
    Unless (runBlocks (dispatch env n) bs w) (runBlocks (dispatch env m) bs w) :=
  ((lockstep_unless env).coupling.runBlocks (inStep_dispatch env h)
    (List.forall₂_same.2 fun b _ => .refl (fun _ => rfl) b)).related rfl

end Levels

/-! ## Compilations -/

omit [FileStore φ] in
theorem Outcome.verdict_eq_exhausted_iff (source : Source) (o : Outcome φ) :
    o.verdict source = .exhausted ↔ o.isExhausted := by
  cases o with
  | finished w =>
    simp only [Outcome.verdict, Outcome.isExhausted]
    split
    · simp
    · split <;> simp
  | refused w => simp [Outcome.verdict, Outcome.isExhausted]
  | exhausted w => simp [Outcome.verdict, Outcome.isExhausted]

/-- A compilation that ends with a number of levels does the same with more of them. -/
theorem compile_eq_of_le {env : Environment} {source : Source} {w : World φ} {n m : Nat}
    (hnm : n ≤ m) (h : (compile env n source w).1 ≠ .exhausted) :
    compile env m source w = compile env n source w := by
  have hn : (run env n source w).isExhausted = false := by
    rw [compile, ne_eq, Outcome.verdict_eq_exhausted_iff] at h
    exact Bool.eq_false_iff.2 h
  have hrun : run env m source w = run env n source w :=
    (runBlocks_unless env hnm source.blocks w.renew).eq hn
  rw [compile, compile, hrun]

end DeckScript
