import DeckScript.Proofs.Nesting
import Mathlib.Logic.Function.Iterate

/-!
# Which runs end

Files that include one another are stopped by the limit, so a run can only go on for ever through
grids: from some record on, every one is a grid and the next one is a cell of it. Grids are not
counted, and a grid file with a line that fills the grid of that same file is never left.

## Main definitions

* `Reaches` — a run carries out a call, directly or nested in others
* `Call.EndlessGrid` — grids that are cells of one another without an end
* `Call.depth` — how many files are being included around a call

## Main results

* `Call.Endless.exists_endlessGrid` — an endless call leads to an endless grid
* `compile_ends_iff` — a compilation ends unless it reaches an endless grid
* `exhausted_of_selfEnteringGrid` — a grid that enters itself never ends
-/

namespace DeckScript

open Relation

variable {φ : Type} [FileStore φ]

/-- Running the script from the state `w` carries out the call, directly or nested in others. -/
def Reaches (env : Environment) (source : Source) (w : World φ) (p : Call φ) : Prop :=
  ∃ q : Call φ, Carried env source.blocks w.renew q.record q.world ∧
    ReflTransGen (Call.Nests env) q p

namespace Call

variable {env : Environment} {p q : Call φ}

/-- The call is the first of a sequence without an end in which each one is a cell of the grid
that the one before it fills. -/
def EndlessGrid (env : Environment) (p : Call φ) : Prop :=
  ∃ f : Nat → Call φ, f 0 = p ∧ ∀ k, (f k).Cell env (f (k + 1))

/-! ## How deep files are included -/

/-- How many files are being included when the call is carried out. -/
def depth (p : Call φ) : Nat := p.world.includes.length

theorem Includes.depth_eq (h : p.Includes env q) : q.depth = p.depth + 1 := by
  obtain ⟨_, _, _, hcarried⟩ := h
  have hincludes := hcarried.precedes.includes
  rw [depth, hincludes]
  simp only [World.enter, opening, World.note, announce_includes, List.length_cons, depth]

theorem Includes.depth_le (h : p.Includes env q) : q.depth ≤ env.includeLimit := by
  rw [h.depth_eq]
  obtain ⟨_, hdepth, _, _⟩ := h
  exact hdepth

theorem Cell.depth_eq (h : p.Cell env q) : q.depth = p.depth := by
  obtain ⟨_, _, hreached, _, _⟩ := h
  have hcells : ∀ n place, Advances (runCell (dispatch env n) p.record.line place : Step φ) :=
    fun n place => advances_runCell (advances_dispatch env n) p.record.line place
  have hincludes := (hreached.precedes hcells).includes
  rw [depth, hincludes]
  simp only [opening, World.note, announce_includes, depth]

theorem Nests.depth_le (h : p.Nests env q) (hp : p.depth ≤ env.includeLimit) :
    q.depth ≤ env.includeLimit := by
  rcases h with h | h
  · exact h.depth_le
  · exact h.depth_eq ▸ hp

theorem depth_le_of_reflTransGen (h : ReflTransGen (Nests env) p q)
    (hp : p.depth ≤ env.includeLimit) : q.depth ≤ env.includeLimit := by
  induction h with
  | refl => exact hp
  | tail _ hstep ih => exact hstep.depth_le ih

/-! ## Endless calls and endless grids -/

theorem EndlessGrid.endless (h : p.EndlessGrid env) : p.Endless env := by
  obtain ⟨f, rfl, hf⟩ := h
  -- A level fewer is left for each call of the sequence.
  have hlevels (n : Nat) : ∀ k, (dispatch env n (f k).record (f k).world).isExhausted := by
    induction n with
    | zero =>
      intro k
      rfl
    | succ n ih =>
      intro k
      exact (hf k).isExhausted (ih (k + 1))
  intro n
  exact hlevels n 0

theorem Endless.of_reflTransGen (h : ReflTransGen (Nests env) p q) (hq : q.Endless env) :
    p.Endless env := by
  induction h using ReflTransGen.head_induction_on with
  | refl => exact hq
  | head hstep _ ih => exact hstep.endless ih

/-- If each of some calls has one of them for a cell, then each of them begins an endless grid. -/
theorem endlessGrid_of_forall (P : Call φ → Prop) (hP : ∀ q, P q → ∃ c, q.Cell env c ∧ P c)
    (hp : P p) : p.EndlessGrid env := by
  choose! next hnext using hP
  have hall (k : Nat) : P (next^[k] p) := by
    induction k with
    | zero => exact hp
    | succ k ih =>
      rw [Function.iterate_succ_apply']
      exact (hnext _ ih).2
  refine ⟨fun k => next^[k] p, rfl, ?_⟩
  intro k
  dsimp only
  rw [Function.iterate_succ_apply']
  exact (hnext _ (hall k)).1

/-- An endless call leads to an endless grid: it can be nested in further files only so often. -/
theorem Endless.exists_endlessGrid (hstandard : env.vocabulary = Vocabulary.standard)
    (hp : p.Endless env) (hdepth : p.depth ≤ env.includeLimit) :
    ∃ q, ReflTransGen (Nests env) p q ∧ q.EndlessGrid env := by
  induction hleft : env.includeLimit - p.depth using Nat.strongRecOn generalizing p with
  | ind left ih =>
    by_cases hfile : ∃ q c, ReflTransGen (Cell env) p q ∧ q.Includes env c ∧ c.Endless env
    · -- The file that is included is closer to the limit.
      obtain ⟨q, c, hpq, hqc, hc⟩ := hfile
      have hq : q.depth = p.depth := by
        clear hqc
        induction hpq with
        | refl => rfl
        | tail _ hstep ih => rw [hstep.depth_eq, ih]
      have hcdepth := hqc.depth_eq
      have hclimit := hqc.depth_le
      obtain ⟨e, hce, he⟩ := ih (env.includeLimit - c.depth) (by omega) hc hclimit rfl
      have hpc : ReflTransGen (Nests env) p c :=
        (ReflTransGen.mono (fun _ _ hcell => Or.inr hcell) _ _ hpq).tail (.inl hqc)
      exact ⟨e, hpc.trans hce, he⟩
    · refine ⟨p, .refl, endlessGrid_of_forall
        (fun q => ReflTransGen (Cell env) p q ∧ q.Endless env) ?_ ⟨.refl, hp⟩⟩
      rintro q ⟨hpq, hq⟩
      obtain ⟨c, hqc | hqc, hc⟩ := hq.exists_nests hstandard
      · exact (hfile ⟨q, c, hpq, hqc, hc⟩).elim
      · exact ⟨c, hqc, hpq.tail hqc, hc⟩

end Call

/-! ## Compilations -/

theorem Reaches.depth_le {env : Environment} {source : Source} {w : World φ} {p : Call φ}
    (h : Reaches env source w p) : p.depth ≤ env.includeLimit := by
  obtain ⟨q, hcarried, hqp⟩ := h
  refine Call.depth_le_of_reflTransGen hqp ?_
  have hincludes := hcarried.precedes.includes
  rw [Call.depth, hincludes]
  exact Nat.zero_le _

/-- A compilation that exhausts every number of levels reaches an endless grid, and only such a
compilation does. -/
theorem forall_exhausted_iff {env : Environment} (hstandard : env.vocabulary = .standard)
    (source : Source) (w : World φ) :
    (∀ levels, (compile env levels source w).1 = .exhausted) ↔
      ∃ p, Reaches env source w p ∧ p.EndlessGrid env := by
  simp only [compile, Outcome.verdict_eq_exhausted_iff, run]
  constructor
  · intro h
    obtain ⟨r, v, hcarried, hr⟩ := exists_carried h
    have hdepth : Reaches env source w ⟨r, v⟩ := ⟨⟨r, v⟩, hcarried, .refl⟩
    have hendless : Call.Endless env ⟨r, v⟩ := hr
    obtain ⟨q, hq, hgrid⟩ := hendless.exists_endlessGrid hstandard hdepth.depth_le
    exact ⟨q, ⟨⟨r, v⟩, hcarried, hq⟩, hgrid⟩
  · rintro ⟨p, ⟨q, hcarried, hqp⟩, hgrid⟩ levels
    exact hcarried.isExhausted (hgrid.endless.of_reflTransGen hqp levels)

/-- A compilation with the standard vocabulary ends, and the same way with more levels, unless it
reaches a grid that is the first of an endless sequence, each a cell of the one before. Files are
never included deeper than the limit: there they are refused as a fault of the class `resource`. -/
theorem compile_ends_iff (includeLimit : Nat) (traced : Bool)
    (runner : Runner) (source : Source) (w : World φ) :
    let env : Environment := ⟨.standard, includeLimit, traced, runner⟩
    ((∃ levels, (compile env levels source w).1 ≠ .exhausted ∧
        ∀ more, levels ≤ more → compile env more source w = compile env levels source w) ↔
      ¬ ∃ p, Reaches env source w p ∧ p.EndlessGrid env) ∧
    ∀ p, Reaches env source w p → p.depth ≤ includeLimit ∧
      ∀ name, p.Asks env (.enter name) → p.depth = includeLimit → ∀ levels,
        dispatch env (levels + 1) p.record p.world =
          .finished ((announce env p.record p.world).blame p.record.line
            (.depth name includeLimit)) ∧
        (Fault.depth name includeLimit).kind = .resource := by
  intro env
  refine ⟨?_, fun p hp => ⟨hp.depth_le, fun name hasks hdepth levels => ⟨?_, rfl⟩⟩⟩
  · rw [← forall_exhausted_iff rfl, not_forall]
    constructor
    · rintro ⟨levels, hends, -⟩
      exact ⟨levels, hends⟩
    · rintro ⟨levels, hends⟩
      exact ⟨levels, hends, fun more hmore => compile_eq_of_le hmore hends⟩
  · exact hasks.dispatch_of_limit (Nat.le_of_eq hdepth.symm) levels

/-! ## A grid that enters itself -/

/-- A line that fills a grid with the lines of the file `g`. -/
def gridLine : String := "grid \"g\" 0 0 1 1 1"

/-- The record of that line when nothing is assigned. -/
def gridRecord : Record := ⟨1, ["grid", "\"g\"", "0", "0", "1", "1", "1"], gridLine⟩

theorem ofLine_gridLine : Record.ofLine Table.empty 1 gridLine = gridRecord := by
  decide +kernel

/-- At every place of the grid the line is the same record again. -/
theorem cell_gridLine (c : Grid.Cursor) : c.cell Table.empty 1 gridLine = gridRecord := by
  rw [Grid.Cursor.cell, ofLine_gridLine]
  simp [gridRecord, Grid.Cursor.coordinate]

theorem lines_gridLine : Text.lines gridLine = [gridLine] := by
  rw [Text.lines, Text.allLines_of_notMem (by decide +kernel)]
  decide +kernel

theorem get?_grid : Vocabulary.standard.get? "grid" = some Directive.grid := by
  rfl

theorem ask_gridRecord :
    ∃ layout, Directive.grid.ask Table.empty gridRecord = .ok (.fillGrid "g" layout) := by
  obtain ⟨zero, hzero⟩ : ∃ v, number "0" = .ok v := ⟨_, rfl⟩
  obtain ⟨one, hone⟩ : ∃ v, number "1" = .ok v := ⟨_, rfl⟩
  refine ⟨⟨zero, zero, one, one, one⟩, ?_⟩
  have hx : Directive.gridNumber Table.empty gridRecord 2 = .ok zero := hzero
  have hy : Directive.gridNumber Table.empty gridRecord 3 = .ok zero := hzero
  have hxStep : Directive.gridNumber Table.empty gridRecord 4 = .ok one := hone
  have hyStep : Directive.gridNumber Table.empty gridRecord 5 = .ok one := hone
  have hlimit : Directive.gridNumber Table.empty gridRecord 6 = .ok one := hone
  have hfile : fileName (gridRecord.arg 1) = .ok "g" := by decide +kernel
  rw [Directive.ask, if_pos (by decide +kernel)]
  simp only [Directive.grid, hx, hy, hxStep, hyStep, hlimit, hfile]
  rfl

/-- While the file `g` holds the line, the line is a cell of its own grid, and so is that cell. -/
theorem endlessGrid_gridRecord {env : Environment} (hstandard : env.vocabulary = .standard)
    {w : World φ} (hstore : w.store = Table.empty)
    (hread : FileStore.read w.files "g" = .ok gridLine) :
    Call.EndlessGrid env ⟨gridRecord, w⟩ := by
  refine Call.endlessGrid_of_forall (fun q => q.record = gridRecord ∧
    q.world.store = Table.empty ∧ FileStore.read q.world.files "g" = .ok gridLine) ?_
    ⟨rfl, hstore, hread⟩
  rintro ⟨_, u⟩ ⟨rfl, hu, hg⟩
  obtain ⟨layout, hask⟩ := ask_gridRecord
  have hasks : Call.Asks env ⟨gridRecord, u⟩ (.fillGrid "g" layout) :=
    ⟨Directive.grid, hstandard ▸ get?_grid, hu ▸ hask⟩
  have hopening : (Call.opening env ⟨gridRecord, u⟩ "g").store = Table.empty :=
    (Call.announce_store env gridRecord u).trans hu
  -- The grid has one place, its first one.
  have hplaces : layout.places layout.start (Text.lines gridLine) =
      [(layout.wrap layout.start, gridLine)] := by
    rw [lines_gridLine, Grid.Layout.places, if_neg (by decide +kernel), Grid.Layout.places]
  refine ⟨⟨gridRecord, Call.opening env ⟨gridRecord, u⟩ "g"⟩, ?_, rfl, hopening,
    (Call.announce_files env gridRecord u).symm ▸ hg⟩
  refine .intro hasks hg ⟨[], [], 0, hplaces, rfl⟩ ?_ (Nat.le_of_ble_eq_true rfl)
  rw [hopening]
  exact (cell_gridLine _).symm

theorem blocks_gridLine : (Source.ofText gridLine).blocks = [.directive ⟨1, gridLine⟩] := by
  have hlines : (Source.ofText gridLine).lines = [⟨1, gridLine⟩] := by
    rw [Source.lines, Source.byteLines, Source.ofText]
    dsimp only
    rw [Text.allLines_of_notMem (by decide +kernel)]
    decide +kernel
  rw [Source.blocks, hlines]
  decide +kernel

/-- When the script and the file `g` hold the line, no limit on included files ends the run. -/
theorem exhausted_of_selfEnteringGrid :
    let files := MemoryFiles.empty.write "g" gridLine
    let w : World MemoryFiles := ⟨.empty, .ofSeed 1, .empty, files, .unlimited, [], []⟩
    ∀ includeLimit levels,
      (compile ⟨.standard, includeLimit, false, .ofAnswers fun _ => .ok .empty⟩ levels
        (Source.ofText gridLine) w).1 = .exhausted := by
  intro files w includeLimit
  have hcarried : Carried ⟨.standard, includeLimit, false, .ofAnswers fun _ => .ok .empty⟩
      (Source.ofText gridLine).blocks w.renew gridRecord w.renew := by
    refine ⟨.directive ⟨1, gridLine⟩, w.renew, ⟨[], [], 0, blocks_gridLine, rfl⟩, ?_⟩
    rw [← ofLine_gridLine]
    exact .directive ⟨1, gridLine⟩ w.renew
  exact (forall_exhausted_iff rfl _ w).2
    ⟨⟨gridRecord, w.renew⟩, ⟨_, hcarried, .refl⟩, endlessGrid_gridRecord rfl rfl rfl⟩

end DeckScript
