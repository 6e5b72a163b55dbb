import DeckScript.Proofs.ChartArguments

/-!
# The places of a grid's lines

In the lines of a grid the words `x` and `y` stand for the place of the line. The values of
variables are looked up first, and the place is put in afterwards. So a variable with one of these
names takes the place of the coordinate, and a variable that has one of these words as its value is
replaced by it. A store in which neither happens in a line is said to spare the line. Where all
lines are spared the words always stand for the place, whatever else is assigned.

## Main definitions

* `IsPlaceWord` — the words for the coordinates of a place
* `Grid.Cursor.placedTokens` — a line with its place put in before any variable is looked up
* `Store.Spares` — in a line the variables do not interfere with the place
* `runPlaced` — carrying out a line of a grid whose place is put in first

## Main results

* `tokens_cell_eq_iff` — at all places a line has its place put in first exactly if it is spared
* `placedTokens_congr` — the variables with these names have no part in it
* `dispatch_eq_runPlaced` — a grid all of whose lines are spared puts its places in first
-/

namespace DeckScript

/-! ## Words for places -/

/-- One of the words for the coordinates of a place. -/
def IsPlaceWord (token : String) : Prop := token = "x" ∨ token = "y"

instance : DecidablePred IsPlaceWord := fun token =>
  inferInstanceAs (Decidable (token = "x" ∨ token = "y"))

namespace Grid.Cursor

variable {c : Cursor} {token other : String}

theorem coordinate_of_not_isPlaceWord (h : ¬IsPlaceWord token) : c.coordinate token = token := by
  rw [IsPlaceWord, not_or] at h
  exact coordinate_of_ne h.1 h.2

/-- A word for a coordinate stands for something else at another corner of the unit square. -/
theorem coordinate_corner_ne (h : IsPlaceWord token) :
    (⟨0, 1⟩ : Cursor).coordinate token ≠ (⟨1, 0⟩ : Cursor).coordinate token := by
  rcases h with rfl | rfl
  · decide +kernel
  · decide +kernel

/-- Tokens that stand for the same at all places are the same. -/
theorem eq_of_forall_coordinate (h : ∀ c : Cursor, c.coordinate token = c.coordinate other) :
    token = other := by
  by_cases htoken : IsPlaceWord token
  · by_cases hother : IsPlaceWord other
    · have hcorner : (⟨0, 1⟩ : Cursor).coordinate "x" ≠ (⟨0, 1⟩ : Cursor).coordinate "y" := by
        decide +kernel
      rcases htoken with rfl | rfl <;> rcases hother with rfl | rfl
      · rfl
      · exact absurd (h ⟨0, 1⟩) hcorner
      · exact absurd (h ⟨0, 1⟩).symm hcorner
      · rfl
    -- What stands for itself cannot be equal to what varies from place to place.
    · refine absurd ?_ (coordinate_corner_ne htoken)
      simp only [h, coordinate_of_not_isPlaceWord hother]
  · by_cases hother : IsPlaceWord other
    · refine absurd ?_ (coordinate_corner_ne hother)
      simp only [← h, coordinate_of_not_isPlaceWord htoken]
    · have hsame := h ⟨0, 1⟩
      rwa [coordinate_of_not_isPlaceWord htoken, coordinate_of_not_isPlaceWord hother] at hsame

/-- What a token stands for if places go before variables. -/
def placed (c : Cursor) (store : Store) (token : String) : String :=
  if IsPlaceWord token then c.coordinate token else store.resolve token

/-- The tokens of a line with its place put in before any variable is looked up. -/
def placedTokens (c : Cursor) (store : Store) (text : String) : List String :=
  match tokenize text with
  | [] => []
  | first :: others => c.coordinate first :: others.map (c.placed store)

/-- A line of a file as a record whose place is put in before any variable is looked up. -/
def placedCell (c : Cursor) (store : Store) (line : Nat) (text : String) : Record :=
  ⟨line, c.placedTokens store text, text⟩

@[simp] theorem length_placedCell (c : Cursor) (store : Store) (line : Nat) (text : String) :
    (c.placedCell store line text).length = (tokenize text).length := by
  rw [placedCell, Record.length, placedTokens]
  cases tokenize text with
  | nil => rfl
  | cons first others => simp

/-- The variables with the names of coordinates have no part in the tokens of a line whose place is
put in first. -/
theorem placedTokens_congr (c : Cursor) {s s' : Store}
    (h : ∀ key, ¬IsPlaceWord key → s.get? key = s'.get? key) (text : String) :
    c.placedTokens s text = c.placedTokens s' text := by
  have hplaced : c.placed s = c.placed s' := by
    funext token
    rw [placed, placed]
    split
    · rfl
    · rename_i htoken
      exact Store.resolve_congr (h token htoken)
  rw [placedTokens, placedTokens, hplaced]

end Grid.Cursor

/-! ## Variables that spare a line -/

/-- Of the tokens of a line behind the first one, those that are words for coordinates, or have such
words as values, stand for themselves. -/
def Store.Spares (store : Store) (text : String) : Prop :=
  ∀ token ∈ (tokenize text).tail,
    IsPlaceWord token ∨ IsPlaceWord (store.resolve token) → store.resolve token = token

instance (store : Store) (text : String) : Decidable (store.Spares text) :=
  inferInstanceAs (Decidable (∀ token ∈ (tokenize text).tail, _))

open Grid.Cursor in
theorem coordinate_resolve_eq_iff {store : Store} {token : String} :
    (∀ c : Grid.Cursor, c.coordinate (store.resolve token) = c.placed store token) ↔
      (IsPlaceWord token ∨ IsPlaceWord (store.resolve token) → store.resolve token = token) := by
  constructor
  · intro h hword
    by_cases htoken : IsPlaceWord token
    · refine eq_of_forall_coordinate fun c => ?_
      rw [h c, placed, if_pos htoken]
    · -- The value is a word for a coordinate, and yet no place changes it.
      have hvalue := hword.resolve_left htoken
      refine absurd ?_ (coordinate_corner_ne hvalue)
      simp only [h, placed, if_neg htoken]
  · intro h c
    rw [placed]
    split
    · rename_i htoken
      rw [h (.inl htoken)]
    · rename_i htoken
      refine coordinate_of_not_isPlaceWord fun hvalue => htoken ?_
      exact h (.inr hvalue) ▸ hvalue

/-- At all places a line has its place put in before its variables, exactly if it is spared. -/
theorem tokens_cell_eq_iff {store : Store} {line : Nat} {text : String} :
    (∀ c : Grid.Cursor, (c.cell store line text).tokens = c.placedTokens store text) ↔
      store.Spares text := by
  simp only [Grid.Cursor.cell, Record.ofLine, Grid.Cursor.placedTokens, Store.Spares]
  cases tokenize text with
  | nil => simp [resolveArgs]
  | cons first others =>
    simp only [resolveArgs, List.map_cons, List.map_map, List.cons.injEq, true_and,
      List.map_inj_left, List.tail_cons, Function.comp_apply]
    rw [forall_comm]
    simp only [forall_comm (α := Grid.Cursor), coordinate_resolve_eq_iff]

theorem Store.Spares.cell_eq {store : Store} {text : String} (h : store.Spares text)
    (c : Grid.Cursor) (line : Nat) : c.cell store line text = c.placedCell store line text := by
  have htokens : (c.cell store line text).tokens = c.placedTokens store text :=
    tokens_cell_eq_iff.2 h c
  rw [Grid.Cursor.placedCell, ← htokens]
  rfl

/-! ## Grids -/

variable {φ : Type}

/-- Carry out a line of a grid whose place is put in before any variable is looked up. A line of too
few tokens does nothing. -/
def runPlaced (exec : Record → Step φ) (line : Nat) (place : Grid.Cursor × String) : Step φ :=
  fun w =>
    if Grid.leastTokens ≤ (tokenize place.2).length then
      exec (place.1.placedCell w.store line place.2) w
    else .finished w

theorem runCell_eq_runPlaced {exec : Record → Step φ} {line : Nat} {place : Grid.Cursor × String}
    {w : World φ} (h : w.store.Spares place.2) :
    runCell exec line place w = runPlaced exec line place w := by
  simp only [runCell, runPlaced, h.cell_eq, Grid.Cursor.length_placedCell]

/-- The record fills a grid with the lines of a file: it has enough tokens, those for the layout are
numbers, and there is the name of a file. -/
structure Record.Grids (r : Record) (store : Store) (file : String) (layout : Grid.Layout) :
    Prop where
  keyword : r.keyword = "grid"
  length : 7 ≤ r.length
  x : Directive.gridNumber store r 2 = .ok layout.x
  y : Directive.gridNumber store r 3 = .ok layout.y
  xStep : Directive.gridNumber store r 4 = .ok layout.xStep
  yStep : Directive.gridNumber store r 5 = .ok layout.yStep
  limit : Directive.gridNumber store r 6 = .ok layout.limit
  file : fileName (r.arg 1) = .ok file

variable {env : Environment} {p : Call φ} {file contents : String} {layout : Grid.Layout}

theorem Record.Grids.asks (hstandard : env.vocabulary = .standard)
    (h : p.record.Grids p.world.store file layout) : p.Asks env (.fillGrid file layout) := by
  refine ⟨Directive.grid, ?_, ?_⟩
  · rw [hstandard, h.keyword]
    rfl
  · have haccepts : Directive.grid.arity.accepts p.record.length := by
      simp [Directive.grid, Arity.atLeast, Arity.accepts, h.length]
    rw [Directive.ask, if_pos haccepts]
    simp only [Directive.grid, h.x, h.y, h.xStep, h.yStep, h.limit, h.file]
    rfl

/-- The lines of a grid with their places. -/
def Grid.Layout.cells (layout : Grid.Layout) (contents : String) :
    List (Grid.Cursor × String) :=
  layout.places layout.start (Text.lines contents)

/-- Let a line fill a grid with the lines of a file that can be read, and let every line of the file
be spared in the state in which it is reached. Then each line is carried out with its place put in
first: the words `x` and `y` stand for the place, and the variables with these names have no part
in the line. A store spares a line exactly if this is so at all places. -/
theorem dispatch_eq_runPlaced [FileStore φ] (hstandard : env.vocabulary = .standard)
    (hgrid : p.record.Grids p.world.store file layout)
    (hread : FileStore.read p.world.files file = .ok contents)
    (hspares : ∀ place v, ReachedBefore (fun n => runCell (dispatch env n) p.record.line)
      (layout.cells contents) (p.opening env file) place v → v.store.Spares place.2) (n : Nat) :
    dispatch env (n + 1) p.record p.world =
        runSteps ((layout.cells contents).map (runPlaced (dispatch env n) p.record.line))
          (p.opening env file) ∧
      (∀ (c : Grid.Cursor) (s s' : Store), (∀ key, ¬IsPlaceWord key → s.get? key = s'.get? key) →
        ∀ text, c.placedTokens s text = c.placedTokens s' text) ∧
      ∀ (store : Store) (line : Nat) (text : String), store.Spares text ↔
        ∀ c : Grid.Cursor, (c.cell store line text).tokens = c.placedTokens store text := by
  refine ⟨?_, ?_, ?_⟩
  · rw [(hgrid.asks hstandard).dispatch_succ,
      fulfil_fillGrid (by rwa [Call.announce_files]), Attempt.settle_outcome]
    have hcell (place : Grid.Cursor × String) (v : World φ)
        (hreached : ReachedBefore (fun n => runCell (dispatch env n) p.record.line)
          (layout.cells contents) (p.opening env file) place v) :
        runCell (dispatch env n) p.record.line place v =
          runPlaced (dispatch env n) p.record.line place v :=
      runCell_eq_runPlaced (hspares place v hreached)
    exact runSteps_congr_of_reachedBefore (fun h => runCell_unless env h p.record.line) hcell
  · intro c s s' h
    exact c.placedTokens_congr h
  · intro store line text
    exact tokens_cell_eq_iff.symm

/-! ## A variable with the name of a coordinate -/

/-- A state in which nothing has happened, with the given variables and one file. -/
def cellsWorld (store : Store) (contents : String) : World MemoryFiles :=
  { bareWorld store with files := MemoryFiles.empty.write "cells" contents }

/-- A line that fills a grid with the lines of that file, in such a state. -/
def cellsCall (store : Store) (contents : String) : Call MemoryFiles :=
  ⟨.ofLine .empty 1 "grid \"cells\" 10 80 20 15 30", cellsWorld store contents⟩

/-- The layout of that grid. -/
def cellsLayout : Grid.Layout := ⟨10, 80, 20, 15, 30⟩

/-- A line of two tokens takes up the first place of a grid and the next line gets the second. -/
theorem dispatch_cellsCall :
    let p := cellsCall (assignedTo "7") "# note\ncircle x y v"
    dispatch bareEnvironment 2 p.record p.world =
      runSteps (([(⟨10, 80⟩, "# note"), (⟨30, 80⟩, "circle x y v")] :
          List (Grid.Cursor × String)).map (runPlaced (dispatch bareEnvironment 1) 1))
        (p.opening bareEnvironment "cells") := by
  intro p
  have hcells : cellsLayout.cells "# note\ncircle x y v" =
      [(⟨10, 80⟩, "# note"), (⟨30, 80⟩, "circle x y v")] := by decide +kernel
  have hgrid : p.record.Grids p.world.store "cells" cellsLayout := by
    constructor <;> decide +kernel
  rw [← hcells]
  refine (dispatch_eq_runPlaced rfl hgrid rfl ?_ 1).1
  rintro place v ⟨before, after, m, hplaces, hfinished⟩
  rw [hcells] at hplaces
  cases before with
  | nil =>
    cases hplaces
    cases hfinished
    decide +kernel
  | cons first before =>
    obtain ⟨rfl, hrest⟩ := List.cons.inj hplaces
    -- The first line does nothing, so the second one is reached in the same state.
    have hskip : runCell (dispatch bareEnvironment m) p.record.line (⟨10, 80⟩, "# note")
        (p.opening bareEnvironment "cells") = .finished (p.opening bareEnvironment "cells") :=
      if_neg (by decide +kernel)
    simp only [List.map_cons, runSteps_cons, hskip, Outcome.finished_andThen] at hfinished
    cases before with
    | nil =>
      cases hrest
      cases hfinished
      decide +kernel
    | cons second before => simp at hrest

/-- With `x` assigned, a grid draws at the value of the variable and not at the place; and it puts
the place where a variable stands whose value is the word `x`. -/
theorem cellsCall_misplaces :
    let assigned := cellsCall (Table.empty.insert "x" "5") "circle x y 2"
    let named := cellsCall (assignedTo "x") "circle v y 2"
    tokenize "circle x y 2" = ["circle", "x", "y", "2"] ∧
      (⟨10, 80⟩ : Grid.Cursor).coordinate "x" = "10" ∧
      (dispatch bareEnvironment 2 assigned.record assigned.world).world.output.text =
        "<ellipse xp=\"5\" yp=\"80\" wp=\"2\" hr=\"100\"/>\n" ∧
      named.world.store.resolve "v" = "x" ∧
      (dispatch bareEnvironment 2 named.record named.world).world.output.text =
        "<ellipse xp=\"10\" yp=\"80\" wp=\"2\" hr=\"100\"/>\n" := by
  decide +kernel

end DeckScript
