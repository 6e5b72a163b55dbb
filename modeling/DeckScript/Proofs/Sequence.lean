import DeckScript.Run.Dispatch

/-!
# Runs as sequences of steps

Records, values, blocks and the lines of a grid are all carried out in order, each one only after
the one before it has finished. So every run is a sequence of steps, and what is closed under
sequencing needs to be shown of single steps only.

## Main definitions

* `Step`, `runSteps` — a step of a run, and steps taken in order
* `Grid.Layout.places`, `runCell` — the lines of a grid with their places, and carrying out one
* `Loop.Source.values`, `loopRecords` — the values of a loop, and the records it carries out

## Main results

* `runRecords_eq_runSteps`, `runBlocks_eq_runSteps`, `runGrid_eq_runSteps` — the runs as sequences
* `runLoop_eq` — a loop carries out its body once for each value, with the value put in
-/

namespace DeckScript

variable {φ : Type}

/-- A step of a run. -/
abbrev Step (φ : Type) := World φ → Outcome φ

/-- Take steps in order. -/
def runSteps : List (Step φ) → Step φ
  | [], w => .finished w
  | s :: rest, w => (s w).andThen (runSteps rest)

@[simp] theorem runSteps_nil (w : World φ) : runSteps [] w = .finished w := rfl

@[simp] theorem runSteps_cons (s : Step φ) (rest : List (Step φ)) (w : World φ) :
    runSteps (s :: rest) w = (s w).andThen (runSteps rest) := rfl

theorem runSteps_append (ss ts : List (Step φ)) (w : World φ) :
    runSteps (ss ++ ts) w = (runSteps ss w).andThen (runSteps ts) := by
  induction ss generalizing w with
  | nil => rfl
  | cons s rest ih =>
    rw [List.cons_append, runSteps_cons, runSteps_cons, Outcome.andThen_assoc]
    congr 1
    funext u
    exact ih u

/-! ## Records, values and blocks -/

theorem runRecords_eq_runSteps (exec : Record → Step φ) (rs : List Record) (w : World φ) :
    runRecords exec rs w = runSteps (rs.map exec) w := by
  induction rs generalizing w with
  | nil => rfl
  | cons r rest ih => simp only [runRecords, List.map_cons, runSteps_cons, ih]

theorem runRecords_append (exec : Record → Step φ) (rs ss : List Record) (w : World φ) :
    runRecords exec (rs ++ ss) w = (runRecords exec rs w).andThen (runRecords exec ss) := by
  have hss : runRecords exec ss = runSteps (ss.map exec) :=
    funext (runRecords_eq_runSteps exec ss)
  rw [runRecords_eq_runSteps, runRecords_eq_runSteps, hss, List.map_append, runSteps_append]

theorem runValues_eq_runSteps (each : String → Step φ) (values : List String) (w : World φ) :
    runValues each values w = runSteps (values.map each) w := by
  induction values generalizing w with
  | nil => rfl
  | cons value rest ih => simp only [runValues, List.map_cons, runSteps_cons, ih]

/-- Carrying out records once for each value is carrying out all the records that this makes. -/
theorem runSteps_map_runRecords (exec : Record → Step φ) (records : String → List Record)
    (values : List String) (w : World φ) :
    runSteps (values.map fun value => runRecords exec (records value)) w =
      runRecords exec (values.flatMap records) w := by
  induction values generalizing w with
  | nil => rfl
  | cons value rest ih =>
    rw [List.map_cons, runSteps_cons, List.flatMap_cons, runRecords_append]
    congr 1
    funext u
    exact ih u

/-- The values of a range, from number `k` on. -/
theorem runRange_eq_runSteps (each : String → Step φ) (first step : Float) (k n : Nat)
    (w : World φ) :
    runRange each first step k n w =
      runSteps (((List.range' k n).map (Loop.rangeValue first step)).map each) w := by
  induction n generalizing k w with
  | zero => rfl
  | succ n ih =>
    simp only [runRange, List.range'_succ, List.map_cons, runSteps_cons, ih]

theorem runBlocks_eq_runSteps [FileStore φ] (exec : Record → Step φ) (bs : List Block)
    (w : World φ) : runBlocks exec bs w = runSteps (bs.map (runBlock exec)) w := by
  induction bs generalizing w with
  | nil => rfl
  | cons b rest ih => simp only [runBlocks, List.map_cons, runSteps_cons, ih]

theorem runBlocks_append [FileStore φ] (exec : Record → Step φ) (bs cs : List Block)
    (w : World φ) :
    runBlocks exec (bs ++ cs) w = (runBlocks exec bs w).andThen (runBlocks exec cs) := by
  have hcs : runBlocks exec cs = runSteps (cs.map (runBlock exec)) :=
    funext (runBlocks_eq_runSteps exec cs)
  rw [runBlocks_eq_runSteps, runBlocks_eq_runSteps, hcs, List.map_append, runSteps_append]

theorem runBlocks_singleton [FileStore φ] (exec : Record → Step φ) (b : Block) :
    runBlocks exec [b] = runBlock exec b :=
  funext fun w => Outcome.andThen_finished (runBlock exec b w)

/-! ## Grids -/

/-- The lines of a grid that take up a place, each with its place, from a place on. -/
def Grid.Layout.places (layout : Grid.Layout) :
    Grid.Cursor → List String → List (Grid.Cursor × String)
  | _, [] => []
  | c, text :: rest =>
    if text.isEmpty then layout.places (layout.wrap c) rest
    else (layout.wrap c, text) :: layout.places (layout.advance (layout.wrap c)) rest

/-- Carry out one line of a grid at its place. -/
def runCell (exec : Record → Step φ) (line : Nat) (place : Grid.Cursor × String) : Step φ :=
  fun w =>
    let cell := place.1.cell w.store line place.2
    if Grid.leastTokens ≤ cell.length then exec cell w else .finished w

theorem runGrid_eq_runSteps (exec : Record → Step φ) (line : Nat) (layout : Grid.Layout)
    (c : Grid.Cursor) (texts : List String) (w : World φ) :
    runGrid exec line layout c texts w =
      runSteps ((layout.places c texts).map (runCell exec line)) w := by
  induction texts generalizing c w with
  | nil => rfl
  | cons text rest ih =>
    rw [runGrid, Grid.Layout.places]
    split
    · exact ih ..
    · rw [List.map_cons, runSteps_cons, runCell]
      dsimp only
      split
      · congr 1
        funext u
        exact ih ..
      · exact ih ..

/-! ## Loops -/

section Loops

variable [FileStore φ]

/-- The values of a loop, with the state after they are looked up. -/
def Loop.Source.values (source : Loop.Source) (w : World φ) :
    World φ × Except Fault (List String) :=
  match source with
  | .range first last step =>
    (w, .ok ((List.range (Loop.floatCount first last step)).map (Loop.rangeValue first step)))
  | .items tokens => (w, .ok (tokens.map Literal.requote))
  | .file name =>
    match w.open? name with
    | (w, .error reason) => (w, .error (.file name reason))
    | (w, .ok contents) => (w, .ok (fileValues contents))

/-- Looking up the values of a loop opens a file at most. -/
theorem Loop.Source.values_fst (source : Loop.Source) (w : World φ) :
    (source.values w).1 = w ∨ ∃ name, (source.values w).1 = w.note (.opened name) := by
  cases source with
  | range first last step => exact .inl rfl
  | items tokens => exact .inl rfl
  | file name =>
    refine .inr ⟨name, ?_⟩
    rw [values, World.open?]
    cases FileStore.read w.files name <;> rfl

/-- The records that a loop carries out, with the state in which it begins to. -/
def loopRecords (header : SourceLine) (body : List SourceLine) (w : World φ) :
    World φ × Except Fault (List Record) :=
  match Loop.Header.ofRecord (header.record w.store) with
  | .error fault => (w, .error fault)
  | .ok loop =>
    let records := body.map fun l => l.record w.store
    match loop.source.values w with
    | (w, .error fault) => (w, .error fault)
    | (w, .ok values) =>
      (w, .ok (values.flatMap fun value => records.map fun r => r.bind loop.placeholder value))

theorem loopRecords_fst (header : SourceLine) (body : List SourceLine) (w : World φ) :
    (loopRecords header body w).1 = w ∨
      ∃ name, (loopRecords header body w).1 = w.note (.opened name) := by
  rw [loopRecords]
  cases Loop.Header.ofRecord (header.record w.store) with
  | error fault => exact .inl rfl
  | ok loop =>
    have hvalues := loop.source.values_fst w
    revert hvalues
    dsimp only
    rcases loop.source.values w with ⟨u, fault | values⟩
    · exact id
    · exact id

theorem runSource_eq (each : String → Step φ) (source : Loop.Source) (w : World φ) :
    runSource each source w =
      match source.values w with
      | (w, .error fault) => .fault fault w
      | (w, .ok values) => .outcome (runSteps (values.map each) w) := by
  cases source with
  | range first last step =>
    simp only [runSource, Loop.Source.values, List.range_eq_range', runRange_eq_runSteps]
  | items tokens => simp only [runSource, Loop.Source.values, runValues_eq_runSteps]
  | file name =>
    rw [runSource, Loop.Source.values]
    rcases w.open? name with ⟨u, reason | contents⟩
    · rfl
    · simp only [runValues_eq_runSteps]

/-- A loop carries out its body once for each value, in order, with the value put in. -/
theorem runLoop_eq (exec : Record → Step φ) (header : SourceLine) (body : List SourceLine)
    (w : World φ) :
    runLoop exec header body w =
      match loopRecords header body w with
      | (w, .error fault) => .fault fault w
      | (w, .ok records) => .outcome (runRecords exec records w) := by
  rw [runLoop, loopRecords]
  cases Loop.Header.ofRecord (header.record w.store) with
  | error fault => rfl
  | ok loop =>
    simp only [runSource_eq]
    rcases loop.source.values w with ⟨u, fault | values⟩
    · rfl
    · simp only [runSteps_map_runRecords]

end Loops

end DeckScript
