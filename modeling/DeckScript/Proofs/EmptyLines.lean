import DeckScript.Proofs.Frames
import DeckScript.Proofs.GridRows
import DeckScript.Proofs.ScriptText

/-!
# Empty lines in the files of grids

A grid that starts within its limit does not notice the empty lines of its file: only the other
lines take up places, and the first of them is at the start. A loop over the lines of a file does
not notice them either. So if a run takes up certain files only in such grids and in loops, then
empty lines may be put into these files or taken out of them, and the run ends in the same way and
in the same state, but for the files themselves.

A grid that starts beyond its limit does notice them. Its place is moved to the next row in front of
each line, empty or not, so every empty line moves the lines behind it down, and not even the first
line is at the start.

## Main definitions

* `SameLines` — texts that have the same lines but for empty ones
* `EmptyLinesApart` — a relation of files that differ in the empty lines of some of them
* `World.Beside` — states that are the same but for their files
* `EndsAlike` — outcomes that are the same but for related states
* `Request.Overlooks` — the request takes up no file in a way that notices its empty lines

## Main results

* `sameLines_insert` — an empty line put into a text
* `Call.endsAlike_dispatch`, `endsAlike_run` — the run of a record and of a script
* `compile_emptyLines` — empty lines in files that are taken up in grids and loops only
-/

namespace DeckScript

open Relation

/-! ## Texts that differ in empty lines -/

/-- The texts have the same lines but for empty ones. -/
def SameLines (s t : String) : Prop := occupied (Text.lines s) = occupied (Text.lines t)

instance (s t : String) : Decidable (SameLines s t) :=
  inferInstanceAs (Decidable (occupied (Text.lines s) = occupied (Text.lines t)))

theorem Text.lines_append {s : String} (h : Ended s) (t : String) :
    lines (s ++ t) = lines s ++ lines t := by
  have hlast : ∀ c ∈ s.toList.getLast?, c = '\n' := by
    rcases h with rfl | ⟨s, rfl⟩
    · intro c hc
      cases hc
    · intro c hc
      rw [String.toList_append, List.getLast?_append] at hc
      exact (Option.some.inj hc).symm
  rw [lines, String.toList_append, allLines_append hlast, List.map_append, lines, lines]

theorem occupied_append (texts texts' : List String) :
    occupied (texts ++ texts') = occupied texts ++ occupied texts' := List.filter_append ..

/-- An empty line may be put in wherever a line begins. -/
theorem sameLines_insert {s : String} (h : Text.Ended s) (t : String) :
    SameLines (s ++ t) (s ++ "\n" ++ t) := by
  have hblank : Text.Ended (s ++ "\n") := .inr ⟨s, rfl⟩
  have hempty : occupied (Text.lines "\n") = [] := by decide +kernel
  rw [SameLines, Text.lines_append h, Text.lines_append hblank, Text.lines_append h,
    occupied_append, occupied_append, occupied_append, hempty, List.append_nil]

/-- Only the lines of a file that are not empty take up a place. -/
theorem Grid.Layout.map_snd_places (layout : Layout) (c : Cursor) (texts : List String) :
    (layout.places c texts).map Prod.snd = occupied texts := by
  induction texts generalizing c with
  | nil => rfl
  | cons text rest ih =>
    rw [places, occupied_cons]
    split
    · exact ih _
    · rw [List.map_cons, ih]

/-- A grid that starts within its limit does not notice empty lines. -/
theorem SameLines.cells_eq {s t : String} (h : SameLines s t) {layout : Grid.Layout}
    (hstart : ¬layout.x > layout.limit) : layout.cells s = layout.cells t := by
  rw [Grid.Layout.cells, Grid.Layout.cells, Grid.Layout.places_eq_zip hstart,
    Grid.Layout.places_eq_zip hstart, h]

/-- The first line of a grid that starts within its limit is at the start. -/
theorem Grid.Layout.fst_of_mem_head?_cells {layout : Layout} (hstart : ¬layout.x > layout.limit)
    (contents : String) : ∀ place ∈ (layout.cells contents).head?, place.1 = layout.start := by
  rw [cells, places_eq_zip hstart, wrap_of_within (c := layout.start) hstart]
  cases occupied (Text.lines contents) with
  | nil => simp
  | cons text rest =>
    rintro place hplace
    obtain rfl := Option.some.inj hplace
    rfl

/-- A loop over the lines of a file does not notice empty lines. -/
theorem SameLines.fileValues_eq {s t : String} (h : SameLines s t) :
    fileValues s = fileValues t := by
  have hvalues (contents : String) : fileValues contents =
      ((occupied (Text.lines contents)).filter fun l => !(Text.trim l).isEmpty).map
        Literal.requote := by
    rw [fileValues, occupied, List.filter_filter]
    refine congrArg (List.map Literal.requote) (List.filter_congr fun l _ => ?_)
    -- Nothing is left of an empty line when it is trimmed.
    by_cases hl : l = ""
    · rw [hl]
      rfl
    · simp [hl]
  rw [hvalues, hvalues, h]

/-! ## Files that differ in empty lines -/

/-- What is read twice is the same, or, where that is allowed, the same but for empty lines. -/
inductive ReadsAlike (loose : Prop) : Except String String → Except String String → Prop
  | same (result : Except String String) : ReadsAlike loose result result
  | lines {s t : String} : loose → SameLines s t → ReadsAlike loose (.ok s) (.ok t)

section Reads

variable {loose : Prop} {result : Except String String}

theorem ReadsAlike.eq {result' : Except String String} (h : ReadsAlike loose result result')
    (hloose : ¬loose) : result = result' := by
  cases h with
  | same => rfl
  | lines hloose' => exact absurd hloose' hloose

theorem ReadsAlike.eq_error {reason : String} (h : ReadsAlike loose (.error reason) result) :
    result = .error reason := by
  cases h
  rfl

theorem ReadsAlike.exists_ok {s : String} (h : ReadsAlike loose (.ok s) result) :
    ∃ t, result = .ok t ∧ (t = s ∨ loose ∧ SameLines s t) := by
  cases h with
  | same => exact ⟨s, rfl, .inl rfl⟩
  | lines hloose hlines => exact ⟨_, rfl, .inr ⟨hloose, hlines⟩⟩

end Reads

/-- Related files read the same but for the empty lines of files with one of the names `A`, and they
stay related when a file is replaced. -/
structure EmptyLinesApart {φ : Type} [FileStore φ] (A : String → Prop) (F : φ → φ → Prop) :
    Prop where
  read {f g : φ} : F f g → ∀ name,
    ReadsAlike (A name) (FileStore.read f name) (FileStore.read g name)
  write {f g : φ} : F f g → ∀ name contents,
    (∃ reason, FileStore.write f name contents = .error reason ∧
      FileStore.write g name contents = .error reason) ∨
    ∃ f' g', FileStore.write f name contents = .ok f' ∧
      FileStore.write g name contents = .ok g' ∧ F f' g'

/-- Files held in memory that are the same but for the empty lines of files with one of the names
`A`. -/
def MemoryFiles.Apart (A : String → Prop) (f g : MemoryFiles) : Prop :=
  ∀ name, ReadsAlike (A name) (f.read name) (g.read name)

theorem MemoryFiles.read_write (files : MemoryFiles) (name contents other : String) :
    (files.write name contents).read other =
      if other = name then .ok contents else files.read other := by
  rw [read, read, write, Table.get?_insert]
  by_cases hother : other = name
  · rw [if_pos hother, if_pos hother]
  · rw [if_neg hother, if_neg hother]

theorem MemoryFiles.emptyLinesApart (A : String → Prop) :
    EmptyLinesApart A (MemoryFiles.Apart A) where
  read h := h
  write {f g} h name contents := by
    refine .inr ⟨f.write name contents, g.write name contents, rfl, rfl, fun other => ?_⟩
    rw [read_write, read_write]
    split
    -- A file that is replaced holds the same on both sides from then on.
    · exact .same _
    · exact h other

/-! ## States that differ in their files -/

variable {φ : Type}

/-- The states are the same but for their files, and these are related. -/
inductive World.Beside (F : φ → φ → Prop) : World φ → World φ → Prop
  | intro {w : World φ} {files : φ} : F w.files files → Beside F w { w with files }

/-- Both steps end in the same way, in states that `S` relates. -/
inductive EndsAlike (S : World φ → World φ → Prop) : Outcome φ → Outcome φ → Prop
  | finished {w v : World φ} : S w v → EndsAlike S (.finished w) (.finished v)
  | refused {w v : World φ} : S w v → EndsAlike S (.refused w) (.refused v)
  | exhausted {w v : World φ} : S w v → EndsAlike S (.exhausted w) (.exhausted v)

section Beside

variable {F : φ → φ → Prop} {w v : World φ}

/-- A change that does not look at the files keeps states the same but for their files. -/
theorem World.Beside.map (h : w.Beside F v) (f : World φ → World φ)
    (hf : ∀ (u : World φ) files, f { u with files } = { f u with files })
    (hfiles : ∀ u : World φ, (f u).files = u.files) : (f w).Beside F (f v) := by
  cases h with
  | @intro files h =>
    have hafter : (f w).Beside F { f w with files } := .intro (by rwa [hfiles])
    rwa [← hf] at hafter

theorem World.Beside.store_eq (h : w.Beside F v) : v.store = w.store := by
  cases h
  rfl

theorem World.Beside.includes_eq (h : w.Beside F v) : v.includes = w.includes := by
  cases h
  rfl

theorem World.Beside.output_eq (h : w.Beside F v) : v.output = w.output := by
  cases h
  rfl

theorem World.Beside.note (h : w.Beside F v) (e : Event) : (w.note e).Beside F (v.note e) :=
  h.map (fun u => u.note e) (fun _ _ => rfl) fun _ => rfl

theorem World.Beside.blame (h : w.Beside F v) (line : Nat) (fault : Fault) :
    (w.blame line fault).Beside F (v.blame line fault) :=
  h.map (fun u => u.blame line fault) (fun _ _ => rfl) fun _ => rfl

theorem World.Beside.announce (h : w.Beside F v) (env : Environment) (r : Record) :
    (announce env r w).Beside F (announce env r v) := by
  rw [DeckScript.announce, DeckScript.announce]
  split
  · exact h.note _
  · exact h

theorem World.Beside.write (h : w.Beside F v) (data : ByteArray) :
    EndsAlike (World.Beside F) (w.write data) (v.write data) := by
  obtain ⟨h⟩ := h
  rw [World.write, World.write]
  rcases w.output.write data with ⟨output, _ | _⟩
  · exact .refused (.intro h)
  · exact .finished (.intro h)

/-- Programs that do not look at what sets the files apart print the same. -/
theorem World.Beside.runChart [FileStore φ] {env : Environment} (hblind : env.runner.Blind F)
    (h : w.Beside F v) (command : List String) (line : Nat) :
    EndsAlike (World.Beside F) ((runChart env command w).settle line)
      ((runChart env command v).settle line) := by
  have hnote := h.note (.called command)
  have hanswer : v.call? env.runner command =
      (v.note (.called command), (w.call? env.runner command).2) := by
    obtain ⟨hfiles⟩ := h
    exact Prod.ext rfl (hblind _ _ hfiles w.calls command).symm
  rw [DeckScript.runChart, DeckScript.runChart, hanswer, World.call?]
  dsimp only
  cases env.runner.answer (FileStore.read w.files) w.calls command with
  | error reason => exact .finished (hnote.blame _ _)
  | ok printed => exact hnote.write _

theorem EndsAlike.world {S : World φ → World φ → Prop} {o p : Outcome φ} (h : EndsAlike S o p) :
    S o.world p.world := by
  cases h with
  | finished h | refused h | exhausted h => exact h

theorem EndsAlike.verdict_eq {o p : Outcome φ} (h : EndsAlike (World.Beside F) o p)
    (source : Source) : p.verdict source = o.verdict source := by
  cases h with
  | finished h => rw [Outcome.verdict, Outcome.verdict, h.output_eq]
  | refused h => rw [Outcome.verdict, Outcome.verdict, h.output_eq]
  | exhausted h => rfl

theorem EndsAlike.leave {o p : Outcome φ} (h : EndsAlike (World.Beside F) o p) :
    EndsAlike (World.Beside F) (o.map World.leave) (p.map World.leave) := by
  have hleave {w v : World φ} (h : w.Beside F v) : w.leave.Beside F v.leave :=
    h.map World.leave (fun _ _ => rfl) fun _ => rfl
  cases h with
  | finished h => exact .finished (hleave h)
  | refused h => exact .refused (hleave h)
  | exhausted h => exact .exhausted (hleave h)

/-- An assignment looks at the variables and the random stream only. -/
theorem World.Beside.runAssignment (h : w.Beside F v) (r : Record) (line : Nat) :
    EndsAlike (World.Beside F) ((runAssignment r w).settle line)
      ((runAssignment r v).settle line) := by
  have hblame (fault : Fault) := h.blame line fault
  obtain ⟨hfiles⟩ := h
  rw [DeckScript.runAssignment, DeckScript.runAssignment]
  split
  · dsimp only
    split
    · exact .finished (hblame _)
    · exact .finished (.intro hfiles)
  · split
    · dsimp only
      split
      · exact .finished (hblame _)
      · exact .finished (.intro hfiles)
    · exact .finished (.intro hfiles)

end Beside

variable [FileStore φ] {A : String → Prop} {F : φ → φ → Prop} {env : Environment}

/-! ## Items and blocks -/

omit [FileStore φ] in
/-- Items of which each ends alike where it is reached end alike when they are taken in order. -/
theorem endsAlike_runSteps {α : Type*} {S : World φ → World φ → Prop} (step : Nat → α → Step φ)
    (hstep : ∀ {n m : Nat}, n ≤ m → ∀ a w, Unless (step n a w) (step m a w)) {n : Nat}
    {items : List α} {w v : World φ} (hS : S w v)
    (hitems : ∀ a u x, ReachedBefore step items w a u → S u x →
      EndsAlike S (step n a u) (step n a x)) :
    EndsAlike S (runSteps (items.map (step n)) w) (runSteps (items.map (step n)) v) := by
  induction items generalizing w v with
  | nil => exact .finished hS
  | cons a rest ih =>
    have hfirst := hitems a w v ⟨[], rest, n, rfl, rfl⟩ hS
    rw [List.map_cons, runSteps_cons, runSteps_cons]
    revert hfirst
    generalize hw : step n a w = o
    generalize step n a v = p
    intro hfirst
    cases hfirst with
    -- What is reached behind the first item is reached in the first run, behind that item.
    | finished hux => exact ih hux fun b y z hb => hitems b y z (hb.cons hstep hw)
    | refused hux => exact .refused hux
    | exhausted hux => exact .exhausted hux

section Apart

variable (hF : EmptyLinesApart A F)
include hF

theorem World.Beside.read {w v : World φ} (h : w.Beside F v) (name : String) :
    ReadsAlike (A name) (FileStore.read w.files name) (FileStore.read v.files name) := by
  obtain ⟨hfiles⟩ := h
  exact hF.read hfiles name

/-- The values of a loop are the same, also of one over the lines of a file. -/
theorem World.Beside.values {w v : World φ} (h : w.Beside F v) (source : Loop.Source) :
    (source.values w).2 = (source.values v).2 ∧
      (source.values w).1.Beside F (source.values v).1 := by
  cases source with
  | range first last step => exact ⟨rfl, h⟩
  | items tokens => exact ⟨rfl, h⟩
  | file name =>
    have hnote := h.note (.opened name)
    have hread := h.read hF name
    simp only [Loop.Source.values, World.open?]
    generalize FileStore.read w.files name = result at hread ⊢
    generalize FileStore.read v.files name = result' at hread ⊢
    cases hread with
    | same result => cases result <;> exact ⟨rfl, hnote⟩
    | lines _ hlines => exact ⟨congrArg Except.ok hlines.fileValues_eq, hnote⟩

theorem World.Beside.loopRecords {w v : World φ} (h : w.Beside F v) (header : SourceLine)
    (body : List SourceLine) :
    (loopRecords header body w).2 = (loopRecords header body v).2 ∧
      (loopRecords header body w).1.Beside F (loopRecords header body v).1 := by
  rw [DeckScript.loopRecords, DeckScript.loopRecords, h.store_eq]
  cases Loop.Header.ofRecord (header.record w.store) with
  | error fault => exact ⟨rfl, h⟩
  | ok loop =>
    have hvalues := h.values hF loop.source
    revert hvalues
    dsimp only
    rcases loop.source.values w with ⟨u, fault | values⟩ <;>
      rcases loop.source.values v with ⟨x, fault' | values'⟩ <;>
      rintro ⟨hsame, hux⟩ <;> cases hsame <;> exact ⟨rfl, hux⟩

theorem World.Beside.runData {w v : World φ} (h : w.Beside F v) (header : SourceLine)
    (rows : List SourceLine) (line : Nat) :
    EndsAlike (World.Beside F) ((runData header rows w).settle line)
      ((runData header rows v).settle line) := by
  have hblame (fault : Fault) := h.blame line fault
  have hnote (e : Event) := h.note e
  obtain ⟨hfiles⟩ := h
  rw [DeckScript.runData, DeckScript.runData]
  dsimp only
  cases Data.target (header.record w.store) with
  | error fault => exact .finished (hblame fault)
  | ok name =>
    simp only [World.save?]
    obtain ⟨reason, hw, hv⟩ | ⟨f, g, hw, hv, hfg⟩ := hF.write hfiles name (Data.contents rows)
    · rw [hw, hv]
      exact .finished ((hnote _).blame _ _)
    · rw [hw, hv]
      exact .finished (.intro hfg)

theorem endsAlike_runBlock {n : Nat} {b : Block} {w v : World φ} (h : w.Beside F v)
    (hrecords : ∀ r u x, b.Carries env w r u → u.Beside F x →
      EndsAlike (World.Beside F) (dispatch env n r u) (dispatch env n r x)) :
    EndsAlike (World.Beside F) (runBlock (dispatch env n) b w) (runBlock (dispatch env n) b v) := by
  cases b with
  | directive l =>
    have hline := hrecords _ w v (.directive l w) h
    obtain ⟨-⟩ := h
    exact hline
  | data header rows => exact h.runData hF header rows _
  | loop header body =>
    rw [runBlock, runBlock, runLoop_eq, runLoop_eq]
    obtain ⟨hsame, hux⟩ := h.loopRecords hF header body
    -- Both loops carry out the same records, or they have the same fault.
    rcases hw : loopRecords header body w with ⟨u, fault | rs⟩ <;>
      rcases hv : loopRecords header body v with ⟨x, fault' | rs'⟩ <;>
      rw [hw, hv] at hsame hux <;> cases hsame
    · exact .finished (hux.blame _ _)
    · dsimp only [Attempt.settle_outcome]
      rw [runRecords_eq_runSteps, runRecords_eq_runSteps]
      exact endsAlike_runSteps (dispatch env) (dispatch_unless env) hux
        fun r y z hr => hrecords r y z (.loop hw hr)

theorem endsAlike_runBlocks {n : Nat} {bs : List Block} {w v : World φ} (h : w.Beside F v)
    (hrecords : ∀ r u x, Carried env bs w r u → u.Beside F x →
      EndsAlike (World.Beside F) (dispatch env n r u) (dispatch env n r x)) :
    EndsAlike (World.Beside F) (runBlocks (dispatch env n) bs w)
      (runBlocks (dispatch env n) bs v) := by
  rw [runBlocks_eq_runSteps, runBlocks_eq_runSteps]
  exact endsAlike_runSteps (fun n => runBlock (dispatch env n))
    (fun h => runBlock_unless env h) h
    fun b u x hb hux => endsAlike_runBlock hF hux
      fun r y z hr => hrecords r y z ⟨b, u, hb, hr⟩

/-! ## Calls -/

omit hF [FileStore φ] in
/-- The request takes up no file with one of the names `A` in a way that notices empty lines: it
does not include one, and it fills no grid with one that starts beyond its limit. -/
def Request.Overlooks (A : String → Prop) : Request → Prop
  | .enter name => ¬A name
  | .fillGrid name layout => A name → ¬layout.x > layout.limit
  | .emit _ | .chart _ | .set _ _ | .run _ => True

omit hF in
/-- Filling a grid ends alike if its cells do. -/
theorem Call.Asks.endsAlike_cells {n : Nat} {p : Call φ} {file contents : String}
    {layout : Grid.Layout} (hasks : p.Asks env (.fillGrid file layout))
    (hread : FileStore.read p.world.files file = .ok contents)
    (hnested : ∀ q x, p.Nests env q → q.world.Beside F x →
      EndsAlike (World.Beside F) (dispatch env n q.record q.world) (dispatch env n q.record x))
    {v : World φ} (h : (p.opening env file).Beside F v) :
    EndsAlike (World.Beside F)
      (runSteps ((layout.cells contents).map (runCell (dispatch env n) p.record.line))
        (p.opening env file))
      (runSteps ((layout.cells contents).map (runCell (dispatch env n) p.record.line)) v) := by
  refine endsAlike_runSteps (fun n => runCell (dispatch env n) p.record.line)
    (fun h => runCell_unless env h p.record.line) h fun place u x hu hux => ?_
  simp only [runCell, hux.store_eq]
  split
  · rename_i hlength
    exact hnested ⟨_, u⟩ x (.inr (.intro hasks hread hu rfl hlength)) hux
  · exact .finished hux

/-- A request ends alike if what it nests does. -/
theorem Call.endsAlike_fulfil (hstandard : env.vocabulary = .standard)
    (hblind : env.runner.Blind F) {n : Nat} {p : Call φ}
    {request : Request} (hasks : p.Asks env request) (hover : request.Overlooks A)
    (hnested : ∀ q x, p.Nests env q → q.world.Beside F x →
      EndsAlike (World.Beside F) (dispatch env n q.record q.world) (dispatch env n q.record x))
    {v : World φ} (h : (announce env p.record p.world).Beside F v) :
    EndsAlike (World.Beside F)
      ((fulfil env (dispatch env n) p.record.line request
        (announce env p.record p.world)).settle p.record.line)
      ((fulfil env (dispatch env n) p.record.line request v).settle p.record.line) := by
  have hrequest : request.IsStandard := by
    obtain ⟨d, hd, hask⟩ := hasks
    exact Vocabulary.isStandard_of_ask (hstandard ▸ hd) hask
  cases request with
  | set name value => exact hrequest.elim
  | run text => exact hrequest.elim
  | emit elements => exact h.write _
  | chart command => exact h.runChart hblind command p.record.line
  | enter name =>
    have hincludes := h.includes_eq
    have hread := (h.read hF name).eq hover
    rw [announce_includes] at hincludes
    rw [announce_files] at hread
    by_cases hlimit : env.includeLimit ≤ p.world.includes.length
    · simp only [fulfil, runInclude, announce_includes, hincludes, if_pos hlimit]
      exact .finished (h.blame _ _)
    cases hp : FileStore.read p.world.files name with
    | error reason =>
      simp only [fulfil, runInclude, announce_includes, hincludes, if_neg hlimit, World.open?,
        announce_files, ← hread, hp]
      exact .finished ((h.note _).blame _ _)
    | ok contents =>
      -- An included file reads the same on both sides, and so its lines have the same numbers.
      rw [Nat.not_le] at hlimit
      rw [fulfil_enter (by rwa [announce_includes]) (by rwa [announce_files]),
        fulfil_enter (by rwa [hincludes]) (by rwa [← hread])]
      have hinside := (h.note (.opened name)).map (fun u => u.enter name) (fun _ _ => rfl)
        fun _ => rfl
      exact (endsAlike_runBlocks hF hinside fun r u x hr =>
        hnested ⟨r, u⟩ x (.inl (.intro hasks hlimit hp hr))).leave
  | fillGrid file layout =>
    have hread := h.read hF file
    rw [announce_files] at hread
    cases hp : FileStore.read p.world.files file with
    | error reason =>
      rw [hp] at hread
      simp only [fulfil, World.open?, announce_files, hp, hread.eq_error]
      exact .finished ((h.note _).blame _ _)
    | ok contents =>
      rw [hp] at hread
      obtain ⟨contents', hv, hlines⟩ := hread.exists_ok
      -- Both files fill the grid with the same cells.
      have hcells : layout.cells contents' = layout.cells contents := by
        rcases hlines with rfl | ⟨hloose, hlines⟩
        · rfl
        · exact (hlines.cells_eq (hover hloose)).symm
      have hgrid := hasks.endsAlike_cells hp hnested (h.note (.opened file))
      rw [fulfil_fillGrid (by rwa [announce_files]), fulfil_fillGrid hv, Attempt.settle_outcome,
        Attempt.settle_outcome]
      rw [Grid.Layout.cells, Grid.Layout.cells] at hcells
      rw [hcells]
      exact hgrid

/-- A call ends alike beside other files if it overlooks their empty lines, and so do all calls that
are nested in it. -/
theorem Call.endsAlike_dispatch (hstandard : env.vocabulary = .standard)
    (hblind : env.runner.Blind F) {n : Nat} {p : Call φ}
    (hall : ∀ q, ReflTransGen (Nests env) p q → ∀ request, q.Asks env request →
      request.Overlooks A) {v : World φ} (h : p.world.Beside F v) :
    EndsAlike (World.Beside F) (dispatch env n p.record p.world) (dispatch env n p.record v) := by
  -- Nested calls are carried out with one level less.
  induction n generalizing p v with
  | zero => exact .exhausted h
  | succ n ih =>
    have hannounce := h.announce env p.record
    rw [dispatch_succ, dispatch_succ, execute, execute, hannounce.store_eq, announce_store]
    cases hd : env.vocabulary.get? p.record.keyword with
    | none => exact hannounce.runAssignment p.record p.record.line
    | some d =>
      dsimp only
      cases hask : d.ask p.world.store p.record with
      | error fault => exact .finished (hannounce.blame _ _)
      | ok request =>
        have hasks : p.Asks env request := ⟨d, hd, hask⟩
        exact endsAlike_fulfil hF hstandard hblind hasks (hall p .refl request hasks)
          (fun q x hq hqx => ih (fun q' hq' => hall q' (.head hq hq')) hqx) hannounce

/-! ## Compilations -/

section Runs

variable {source : Source} {w v : World φ} (hstandard : env.vocabulary = .standard)
  (hblind : env.runner.Blind F)
  (hall : ∀ p, Reaches env source w p → ∀ request, p.Asks env request → request.Overlooks A)
  (h : w.Beside F v)
include hstandard hblind hall h

theorem endsAlike_run (levels : Nat) :
    EndsAlike (World.Beside F) (run env levels source w) (run env levels source v) := by
  have hrenew := h.map World.renew (fun _ _ => rfl) fun _ => rfl
  exact endsAlike_runBlocks hF hrenew fun r u x hr hux =>
    Call.endsAlike_dispatch (p := ⟨r, u⟩) hF hstandard hblind
      (fun q hq => hall q ⟨⟨r, u⟩, hr, hq⟩) hux

/-- Let two states be the same but for the empty lines of some files, let programs not look at
them, and let no line of the run from the first one include such a file or fill a grid with it that
starts beyond its limit. Then both compilations end in the same way, and in states that are again
the same but for these empty lines: with the same output, variables and report.

Files differ in empty lines if one is made of the other by putting in line breaks where lines begin.
Whatever the layout, only lines that are not empty get a place, and the first of them gets the start
if that is within the limit. -/
theorem compile_emptyLines (levels : Nat) :
    (compile env levels source v).1 = (compile env levels source w).1 ∧
      (compile env levels source w).2.Beside F (compile env levels source v).2 ∧
      (∀ s t, Text.Ended s → SameLines (s ++ t) (s ++ "\n" ++ t)) ∧
      ∀ (layout : Grid.Layout) (contents : String),
        (layout.cells contents).map Prod.snd = occupied (Text.lines contents) ∧
          (¬layout.x > layout.limit →
            ∀ place ∈ (layout.cells contents).head?, place.1 = layout.start) := by
  have hrun := endsAlike_run hF hstandard hblind hall h levels
  refine ⟨hrun.verdict_eq source, hrun.world, fun s t hs => sameLines_insert hs t, ?_⟩
  intro layout contents
  exact ⟨layout.map_snd_places _ _,
    fun hstart => Grid.Layout.fst_of_mem_head?_cells hstart contents⟩

end Runs

end Apart

/-! ## Looking through the acts of a run -/

instance [DecidablePred A] : (request : Request) → Decidable (request.Overlooks A)
  | .enter name => inferInstanceAs (Decidable (¬A name))
  | .fillGrid name layout => inferInstanceAs (Decidable (A name → ¬layout.x > layout.limit))
  | .emit _ | .chart _ | .set _ _ | .run _ => inferInstanceAs (Decidable True)

omit [FileStore φ] in
/-- The act takes up no file with one of the names in a way that notices empty lines. -/
def Act.Overlooks (env : Environment) (A : String → Prop) : Act φ → Prop
  | .call p => ∀ request ∈ p.request? env, request.Overlooks A
  | .loop _ _ _ | .data _ _ _ => True

instance [DecidablePred A] : (a : Act φ) → Decidable (a.Overlooks env A)
  | .call p => inferInstanceAs (Decidable (∀ request ∈ p.request? env, request.Overlooks A))
  | .loop _ _ _ | .data _ _ _ => inferInstanceAs (Decidable True)

/-- Whether the calls of a run that ends overlook the empty lines of files can be seen from its
acts. -/
theorem Reaches.overlooks {source : Source} {w : World φ} {levels : Nat} {p : Call φ}
    (hp : Reaches env source w p) (hends : (run env levels source w).isExhausted = false)
    (h : ∀ a ∈ history env levels source w, a.Overlooks env A) (request : Request)
    (hasks : p.Asks env request) : request.Overlooks A :=
  h _ (hp.mem_history hends) request (Call.request?_eq_some_iff.2 hasks)

/-! ## A grid with empty lines -/

/-- Within its limit, a grid draws the same whether there are empty lines in its file or not. -/
theorem compile_emptyLines_cells :
    let source := Source.ofText "grid \"cells\" 10 80 20 15 30\n"
    let w := cellsWorld .empty "circle x y 2\ncircle x y 3\n"
    let v := cellsWorld .empty "\ncircle x y 2\n\ncircle x y 3\n"
    (compile bareEnvironment 2 source v).1 = (compile bareEnvironment 2 source w).1 ∧
      (compile bareEnvironment 2 source w).2.Beside (MemoryFiles.Apart (· = "cells"))
        (compile bareEnvironment 2 source v).2 := by
  intro source w v
  have hfiles : MemoryFiles.Apart (· = "cells") w.files v.files := by
    intro name
    have hw : w.files = MemoryFiles.empty.write "cells" "circle x y 2\ncircle x y 3\n" := rfl
    have hv : v.files = MemoryFiles.empty.write "cells" "\ncircle x y 2\n\ncircle x y 3\n" := rfl
    rw [hw, hv, MemoryFiles.read_write, MemoryFiles.read_write]
    split
    · exact .lines ‹_› (by decide +kernel)
    · exact .same _
  have hends : (run bareEnvironment 2 source w).isExhausted = false := by decide +kernel
  have hacts : ∀ a ∈ history bareEnvironment 2 source w,
      a.Overlooks bareEnvironment (· = "cells") := by
    decide +kernel
  have hstandard : bareEnvironment.vocabulary = .standard := rfl
  have hblind : bareEnvironment.runner.Blind (MemoryFiles.Apart (· = "cells")) :=
    Runner.blind_ofAnswers _ _
  have hcompile := compile_emptyLines (MemoryFiles.emptyLinesApart (· = "cells")) hstandard hblind
    (fun p hp => hp.overlooks hends hacts) (.intro hfiles) 2
  exact ⟨hcompile.1, hcompile.2.1⟩

/-- Beyond its limit, a grid draws its first line in the second row, and an empty line moves it to
the third one. -/
theorem cells_moved_by_emptyLine :
    let layout : Grid.Layout := ⟨50, 80, 20, 15, 30⟩
    let record := Record.ofLine .empty 1 "grid \"cells\" 50 80 20 15 30"
    let without := cellsWorld .empty "circle x y 2"
    let within := cellsWorld .empty "\ncircle x y 2"
    SameLines "circle x y 2" "\ncircle x y 2" ∧ layout.start = ⟨50, 80⟩ ∧
      layout.cells "circle x y 2" = [(⟨50, 65⟩, "circle x y 2")] ∧
      layout.cells "\ncircle x y 2" = [(⟨50, 50⟩, "circle x y 2")] ∧
      (dispatch bareEnvironment 2 record without).world.output.text =
        "<ellipse xp=\"50\" yp=\"65\" wp=\"2\" hr=\"100\"/>\n" ∧
      (dispatch bareEnvironment 2 record within).world.output.text =
        "<ellipse xp=\"50\" yp=\"50\" wp=\"2\" hr=\"100\"/>\n" := by
  decide +kernel

end DeckScript
