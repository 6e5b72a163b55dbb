import DeckScript.Proofs.Composition
import DeckScript.Proofs.GridPlaces
import DeckScript.Proofs.LoopValues
import DeckScript.Proofs.StoreInvariant
import Mathlib.Data.List.Iterate

/-!
# The rows of a grid

If a grid starts within its limit, then so does every place of it. The lines of its file that are
not empty get the places from the start on, one after the other: each is a step to the right of the
one before it, or at the start of the next row if that step leads beyond the limit.

The lines are carried out in their order, and a fault in one of them does not keep the others from
it. Nothing that is nested in a grid assigns to a coordinate: no file is included from there, and a
line that begins with the word for a coordinate begins with a number. So if the grid is reached with
no variable of that name, its lines are, and the words for the coordinates stand for the place. Only
a variable whose value is such a word can interfere.

## Main definitions

* `Grid.Layout.next` — the place behind a place
* `occupied` — the lines that take up a place
* `Store.Vacates` — no variable has the name of a coordinate
* `Store.HidesPlace` — in a line some other word has the word for a coordinate as its value

## Main results

* `Grid.Layout.places_eq_zip` — the lines of a grid and its places, one after the other
* `Call.Asks.exists_cell` — what is nested in a grid is a line of a grid
* `dispatch_grid` — how the lines of a grid are placed and carried out
-/

namespace DeckScript

open Relation

/-! ## From place to place -/

/-- The lines that take up a place. -/
def occupied (texts : List String) : List String := texts.filter fun text => !text.isEmpty

theorem occupied_cons (text : String) (rest : List String) :
    occupied (text :: rest) = if text.isEmpty then occupied rest else text :: occupied rest := by
  rw [occupied, List.filter_cons]
  cases text.isEmpty <;> rfl

namespace Grid.Layout

variable {layout : Layout}

/-- The place behind a place: a step to the right, or at the start of the next row if that step
leads beyond the limit. -/
def next (layout : Layout) (c : Cursor) : Cursor :=
  if c.x + layout.xStep > layout.limit then ⟨layout.x, c.y - layout.yStep⟩
  else ⟨c.x + layout.xStep, c.y⟩

theorem wrap_advance (layout : Layout) (c : Cursor) :
    layout.wrap (layout.advance c) = layout.next c := rfl

/-- No place is beyond the limit once the rows begin within it. -/
theorem wrap_within (h : ¬layout.x > layout.limit) (c : Cursor) :
    ¬(layout.wrap c).x > layout.limit := by
  rw [wrap]
  split
  · exact h
  · assumption

theorem wrap_of_within {c : Cursor} (h : ¬c.x > layout.limit) : layout.wrap c = c := if_neg h

/-- The places of a grid follow one another, and only the lines that are not empty take one up. -/
theorem places_eq_zip (h : ¬layout.x > layout.limit) (c : Cursor) (texts : List String) :
    layout.places c texts =
      (List.iterate layout.next (layout.wrap c) (occupied texts).length).zip (occupied texts) := by
  induction texts generalizing c with
  | nil => rfl
  | cons text rest ih =>
    rw [places, occupied_cons]
    split
    -- To wrap a place before an empty line and again behind it is to wrap it once.
    · rw [ih, wrap_of_within (wrap_within h c)]
    · rw [ih, wrap_advance]
      rfl

theorem within_of_mem_places (h : ¬layout.x > layout.limit) {c : Cursor} {texts : List String}
    {place : Cursor × String} (hplace : place ∈ layout.places c texts) :
    ¬place.1.x > layout.limit := by
  induction texts generalizing c with
  | nil => cases hplace
  | cons text rest ih =>
    rw [places] at hplace
    split at hplace
    · exact ih hplace
    · rcases List.mem_cons.1 hplace with rfl | hplace
      · exact wrap_within h c
      · exact ih hplace

end Grid.Layout

/-! ## Variables with the names of coordinates -/

/-- No variable has the name of a coordinate. -/
def Store.Vacates (store : Store) : Prop := ∀ word, IsPlaceWord word → store.get? word = none

/-- In the line, some token behind the first one has the word for a coordinate as its value without
being such a word itself. -/
def Store.HidesPlace (store : Store) (text : String) : Prop :=
  ∃ token ∈ (tokenize text).tail, ¬IsPlaceWord token ∧ IsPlaceWord (store.resolve token)

instance (store : Store) (text : String) : Decidable (store.HidesPlace text) :=
  inferInstanceAs (Decidable (∃ token ∈ (tokenize text).tail, _))

/-- Without variables with the names of coordinates, only hidden words interfere with a place. -/
theorem Store.Vacates.spares_iff {store : Store} (h : store.Vacates) (text : String) :
    store.Spares text ↔ ¬store.HidesPlace text := by
  constructor
  · rintro hspares ⟨token, htoken, hword, hvalue⟩
    exact hword (hspares token htoken (.inr hvalue) ▸ hvalue)
  · intro hnone token htoken hword
    by_cases hplace : IsPlaceWord token
    · exact Store.resolve_of_get?_eq_none (h token hplace)
    · exact absurd ⟨token, htoken, hplace, hword.resolve_left hplace⟩ hnone

theorem Store.Vacates.insert {store : Store} (h : store.Vacates) {key : String}
    (hkey : ¬IsPlaceWord key) (value : String) : Store.Vacates (store.insert key value) := by
  intro word hword
  have hne : word ≠ key := by
    rintro rfl
    exact hkey hword
  rw [Table.get?_insert_of_ne store value hne]
  exact h word hword

theorem not_isPlaceWord_of_beginsUpright {word : String} (h : BeginsUpright word.toList) :
    ¬IsPlaceWord word := by
  obtain ⟨c, rest, hchars, hc⟩ := h
  intro hword
  have hlower : word.toList.head?.any Char.isLower := by rcases hword with rfl | rfl <;> decide
  rw [hchars, List.head?_cons, Option.any_some, hc] at hlower
  cases hlower

namespace Grid.Cursor

/-- Nothing stands for the word for a coordinate. -/
theorem not_isPlaceWord_coordinate (c : Cursor) (token : String) :
    ¬IsPlaceWord (c.coordinate token) := by
  have hnumber (v : Float) : ¬IsPlaceWord (Number.text v) := by
    refine not_isPlaceWord_of_beginsUpright ?_
    rw [Number.text, String.toList_ofList]
    exact Number.beginsUpright_chars v
  rw [coordinate]
  split_ifs with hx hy
  · exact hnumber c.x
  · exact hnumber c.y
  · exact not_or.2 ⟨hx, hy⟩

/-- No line of a grid assigns to a coordinate. -/
theorem not_isPlaceWord_keyword_cell (c : Cursor) (store : Store) (line : Nat) (text : String) :
    ¬IsPlaceWord (c.cell store line text).keyword := by
  rw [cell, Record.keyword, Record.arg]
  dsimp only
  cases (Record.ofLine store line text).tokens with
  | nil => exact not_or.2 ⟨by simp, by simp⟩
  | cons first others => exact c.not_isPlaceWord_coordinate first

end Grid.Cursor

/-! ## What is nested in a grid -/

theorem Arity.accepts_exactly {n m : Nat} : (exactly n).accepts m ↔ m = n := by
  rw [exactly, accepts, Bool.and_eq_true, Option.all_some, decide_eq_true_eq, decide_eq_true_eq]
  exact ⟨fun h => Nat.le_antisymm h.2 h.1, fun h => ⟨h.ge, h.le⟩⟩

/-- A directive that asks for a file to be included has one argument. -/
def Directive.EntersAlone (d : Directive) : Prop :=
  ∀ store r name, d.ask store r = .ok (.enter name) → r.length = 2

namespace Directive

theorem entersAlone_markup (arity : Arity) (synopsis : String)
    (f : Record → Except Fault (List Markup.Element)) :
    EntersAlone ⟨arity, synopsis, .markup f⟩ := by
  intro store r name h
  obtain ⟨elements, -, heq⟩ := exists_of_ask_eq_ok h
  cases heq

theorem entersAlone_inclusion : inclusion.EntersAlone := by
  intro store r name h
  rw [ask] at h
  split at h
  · rename_i haccepts
    exact Arity.accepts_exactly.1 haccepts
  · cases h

theorem entersAlone_grid : grid.EntersAlone := by
  intro store r name h
  obtain ⟨x, -, h⟩ := exists_of_bind_eq_ok (exists_of_ask_eq_ok h)
  obtain ⟨y, -, h⟩ := exists_of_bind_eq_ok h
  obtain ⟨xStep, -, h⟩ := exists_of_bind_eq_ok h
  obtain ⟨yStep, -, h⟩ := exists_of_bind_eq_ok h
  obtain ⟨limit, -, h⟩ := exists_of_bind_eq_ok h
  obtain ⟨file, -, h⟩ := exists_of_bind_eq_ok h
  cases h

theorem entersAlone_chart : chart.EntersAlone := by
  intro store r name h
  cases exists_of_ask_eq_ok h

end Directive

open Directive in
theorem Vocabulary.entersAlone_of_mem : ∀ e ∈ standardEntries, e.2.EntersAlone :=
  forall_mem_standardEntries (fun _ => entersAlone_markup) entersAlone_inclusion
    entersAlone_grid entersAlone_chart entersAlone_chart

variable {φ : Type} [FileStore φ] {env : Environment} {p q : Call φ} {file contents : String}
  {layout : Grid.Layout}

namespace Call

omit [FileStore φ] in
theorem Asks.unique {request request' : Request} (h : p.Asks env request)
    (h' : p.Asks env request') : request = request' := by
  obtain ⟨d, hd, hask⟩ := h
  obtain ⟨d', hd', hask'⟩ := h'
  rw [hd] at hd'
  obtain rfl := Option.some.inj hd'
  rw [hask] at hask'
  exact Except.ok.inj hask'

omit [FileStore φ] in
theorem Asks.length_eq {name : String} (hstandard : env.vocabulary = .standard)
    (h : p.Asks env (.enter name)) : p.record.length = 2 := by
  obtain ⟨d, hd, hask⟩ := h
  rw [hstandard] at hd
  exact Vocabulary.entersAlone_of_mem _ (Table.mem_of_get?_ofList hd) _ _ _ hask

/-- What is nested in a call that fills a grid is a line of a grid. -/
theorem Asks.exists_cell (hstandard : env.vocabulary = .standard)
    (h : p.Asks env (.fillGrid file layout)) (hq : ReflTransGen (Nests env) p q) :
    q = p ∨ ∃ c : Call φ, c.Cell env q := by
  induction hq with
  | refl => exact .inl rfl
  | @tail b q _ hbq ih =>
    rcases hbq with ⟨henters, -, -, -⟩ | hcell
    · rcases ih with rfl | ⟨c, hcell⟩
      · cases h.unique henters
      -- A line of a grid has more tokens than one that includes a file.
      · obtain ⟨-, -, -, -, hlength⟩ := hcell
        rw [henters.length_eq hstandard] at hlength
        exact absurd hlength (by decide)
    · exact .inr ⟨b, hcell⟩

theorem Cell.keeps_vacates (h : p.Cell env q) : q.Keeps env Store.Vacates := by
  obtain ⟨-, -, -, hrecord, -⟩ := h
  intro _ value hstore
  refine hstore.insert ?_ value
  rw [hrecord]
  exact Grid.Cursor.not_isPlaceWord_keyword_cell _ _ _ _

/-- What is nested in a grid assigns to no coordinate. -/
theorem Asks.keeps_vacates (hstandard : env.vocabulary = .standard)
    (h : p.Asks env (.fillGrid file layout)) (hq : ReflTransGen (Nests env) p q) :
    q.Keeps env Store.Vacates := by
  rcases h.exists_cell hstandard hq with rfl | ⟨c, hcell⟩
  -- The grid itself is a directive and assigns nothing.
  · obtain ⟨d, hd, -⟩ := h
    rintro ⟨hnone, -⟩
    rw [hd] at hnone
    cases hnone
  · exact hcell.keeps_vacates

/-- The lines of a grid that is reached without variables with the names of coordinates are reached
without them. -/
theorem Asks.vacates_of_reachedBefore (hstandard : env.vocabulary = .standard)
    (h : p.Asks env (.fillGrid file layout))
    (hread : FileStore.read p.world.files file = .ok contents) (hp : p.world.store.Vacates)
    {place : Grid.Cursor × String} {v : World φ}
    (hreached : ReachedBefore (fun n => runCell (dispatch env n) p.record.line)
      (layout.cells contents) (p.opening env file) place v) : v.store.Vacates := by
  have hopening : (p.opening env file).store.Vacates := by
    rwa [opening, World.note, announce_store]
  refine hreached.keeps (Q := fun v => v.store.Vacates)
    (fun h => runCell_unless env h p.record.line) (fun n place u hu hstore => ?_) hopening
  rw [runCell]
  split
  -- A line that is long enough is a call, and so is all that is nested in it.
  · rename_i hlength
    have hnests : p.Nests env ⟨_, u⟩ := .inr (.intro h hread hu rfl hlength)
    exact keeps_dispatch (p := ⟨_, u⟩) hstandard
      (fun q hq => h.keeps_vacates hstandard (.head hnests hq)) hstore
  · exact hstore

end Call

/-! ## Carrying out the lines of a grid -/

omit [FileStore φ] in
theorem Outcome.exists_of_andThen_eq_finished {o : Outcome φ} {f : Step φ} {u : World φ}
    (h : o.andThen f = .finished u) : ∃ v, o = .finished v ∧ f v = .finished u := by
  cases o with
  | finished v => exact ⟨v, rfl, h⟩
  | refused v | exhausted v => cases h

omit [FileStore φ] in
/-- If all steps are finished, then so is each of them. -/
theorem exists_of_runSteps_eq_finished {before after : List (Step φ)} {s : Step φ} {w u : World φ}
    (h : runSteps (before ++ s :: after) w = .finished u) :
    ∃ v x, runSteps before w = .finished v ∧ s v = .finished x := by
  rw [runSteps_append] at h
  obtain ⟨v, hbefore, h⟩ := Outcome.exists_of_andThen_eq_finished h
  rw [runSteps_cons] at h
  obtain ⟨x, hs, -⟩ := Outcome.exists_of_andThen_eq_finished h
  exact ⟨v, x, hbefore, hs⟩

/-- With an output that takes everything, a record is finished if it ends. -/
theorem exists_finished_of_takesAll {n : Nat} {r : Record} {w : World φ} (hw : w.TakesAll)
    (hends : (dispatch env n r w).isExhausted = false) : ∃ u, dispatch env n r w = .finished u := by
  have hsame := (unrefused_dispatch env n (.refl (fun _ => rfl) r)).related ⟨rfl, hw⟩
  cases hdispatch : dispatch env n r w with
  | finished u => exact ⟨u, rfl⟩
  | refused u =>
    rw [hdispatch] at hsame
    cases hsame
  | exhausted u =>
    rw [hdispatch] at hends
    cases hends

/-- Let a line fill a grid that starts within its limit with the lines of a file that can be read,
and let no variable have the name of a coordinate.

The lines of the file that are not empty get the places from the start on, and none of these is
beyond the limit. The lines are carried out in order, each at its place. With an output that takes
everything each of them is carried out to its end, unless lines are nested without end.

No line is reached with a variable that has the name of a coordinate. A line in which no other word
has such a name as its value has its place put in first. -/
theorem dispatch_grid (hstandard : env.vocabulary = .standard)
    (hgrid : p.record.Grids p.world.store file layout)
    (hread : FileStore.read p.world.files file = .ok contents) (hp : p.world.store.Vacates)
    (hstart : ¬layout.x > layout.limit) (n : Nat) :
    let lines := occupied (Text.lines contents)
    let cells := (List.iterate layout.next layout.start lines.length).zip lines
    let step := fun n => runCell (dispatch env n) p.record.line
    (∀ place ∈ cells, ¬place.1.x > layout.limit) ∧
      dispatch env (n + 1) p.record p.world =
        runSteps (cells.map (step n)) (p.opening env file) ∧
      (p.world.TakesAll → (dispatch env (n + 1) p.record p.world).isExhausted = false →
        ∀ before place after, cells = before ++ place :: after →
          ∃ v u, runSteps (before.map (step n)) (p.opening env file) = .finished v ∧
            step n place v = .finished u) ∧
      ∀ place v, ReachedBefore step cells (p.opening env file) place v →
        v.store.Vacates ∧ (¬v.store.HidesPlace place.2 →
          step n place v = runPlaced (dispatch env n) p.record.line place v) := by
  intro lines cells step
  have hcells : layout.cells contents = cells := by
    rw [Grid.Layout.cells, Grid.Layout.places_eq_zip hstart,
      Grid.Layout.wrap_of_within (c := layout.start) hstart]
  have hasks := hgrid.asks hstandard
  have hdispatch : dispatch env (n + 1) p.record p.world =
      runSteps (cells.map (step n)) (p.opening env file) := by
    rw [hasks.dispatch_succ, fulfil_fillGrid (by rwa [Call.announce_files]),
      Attempt.settle_outcome, ← hcells]
    rfl
  refine ⟨?_, hdispatch, ?_, ?_⟩
  · rw [← hcells]
    exact fun place hplace => Grid.Layout.within_of_mem_places hstart hplace
  · intro hall hends before place after hsplit
    obtain ⟨u, hfinished⟩ := exists_finished_of_takesAll hall hends
    rw [hdispatch, hsplit, List.map_append, List.map_cons] at hfinished
    exact exists_of_runSteps_eq_finished hfinished
  · intro place v hreached
    rw [← hcells] at hreached
    have hv := hasks.vacates_of_reachedBefore hstandard hread hp hreached
    exact ⟨hv, fun hnone => runCell_eq_runPlaced ((hv.spares_iff place.2).2 hnone)⟩

theorem vacates_assignedTo (value : String) : (assignedTo value).Vacates := by
  rintro word (rfl | rfl) <;> rfl

/-- A line of one token takes up the second place and the third line begins the next row. -/
theorem dispatch_grid_rows :
    let p := cellsCall (assignedTo "7") "circle x y v\n\nli\ncircle x y 2"
    let first : Grid.Cursor × String := (⟨10, 80⟩, "circle x y v")
    let second : Grid.Cursor × String := (⟨30, 80⟩, "li")
    let third : Grid.Cursor × String := (⟨10, 65⟩, "circle x y 2")
    let step := runCell (dispatch bareEnvironment 1) 1
    dispatch bareEnvironment 2 p.record p.world =
        runSteps ([first, second, third].map step) (p.opening bareEnvironment "cells") ∧
      step first (p.opening bareEnvironment "cells") =
        runPlaced (dispatch bareEnvironment 1) 1 first (p.opening bareEnvironment "cells") ∧
      ∃ v u, runSteps ([first, second].map step) (p.opening bareEnvironment "cells") =
        .finished v ∧ step third v = .finished u := by
  intro p first second third step
  have hgrid : p.record.Grids p.world.store "cells" cellsLayout := by
    constructor <;> decide +kernel
  have hcells : (List.iterate cellsLayout.next cellsLayout.start
      (occupied (Text.lines "circle x y v\n\nli\ncircle x y 2")).length).zip
        (occupied (Text.lines "circle x y v\n\nli\ncircle x y 2")) = [first, second, third] := by
    decide +kernel
  have hends : (dispatch bareEnvironment 2 p.record p.world).isExhausted = false := by
    decide +kernel
  have hstandard : bareEnvironment.vocabulary = .standard := rfl
  obtain ⟨-, hdispatch, hfinished, hreached⟩ :=
    dispatch_grid hstandard hgrid rfl (vacates_assignedTo "7") (by decide +kernel) 1
  dsimp only at hdispatch hfinished hreached
  rw [hcells] at hdispatch hfinished hreached
  refine ⟨hdispatch, ?_, hfinished rfl hends [first, second] third [] rfl⟩
  exact (hreached first _ ⟨[], [second, third], 1, rfl, rfl⟩).2 (by decide +kernel)

/-- A variable whose value is the word for a coordinate is replaced by the place, although no
variable has the name of a coordinate. -/
theorem dispatch_grid_hidden :
    let p := cellsCall (assignedTo "x") "circle v y 2"
    let place : Grid.Cursor × String := (⟨10, 80⟩, "circle v y 2")
    p.world.store.get? "x" = none ∧ p.world.store.get? "y" = none ∧
      p.world.store.HidesPlace "circle v y 2" ∧
      cellsLayout.cells "circle v y 2" = [place] ∧
      place.1.placedTokens p.world.store place.2 = ["circle", "x", "80", "2"] ∧
      (runPlaced (dispatch bareEnvironment 1) 1 place
        (p.opening bareEnvironment "cells")).world.output.text =
          "<ellipse xp=\"x\" yp=\"80\" wp=\"2\" hr=\"100\"/>\n" ∧
      (dispatch bareEnvironment 2 p.record p.world).world.output.text =
        "<ellipse xp=\"10\" yp=\"80\" wp=\"2\" hr=\"100\"/>\n" := by
  decide +kernel

end DeckScript
