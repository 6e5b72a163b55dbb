import DeckScript.Proofs.History

/-!
# The journal of a run

A run notes what it asks of its surroundings: which files it opens and replaces, which programs it
runs, and which lines it traces. An act by itself opens one file at most, and what it notes can be
told from its line and its state. So the journal of a run is what its acts note, one after the
other, and a file that a run opened was named by one of them.

## Main definitions

* `Act.events` — what an act notes by itself
* `World.Notes` — between two states the journal grows by what these acts note

## Main results

* `notes_dispatch`, `journal_run` — a journal grows by what the acts note, in order
-/

namespace DeckScript

variable {φ : Type}

/-- What a request notes once it is found good, without the records that it nests. -/
def Request.events (env : Environment) (w : World φ) : Request → List Event
  | .enter name => if env.includeLimit ≤ w.includes.length then [] else [.opened name]
  | .fillGrid name _ => [.opened name]
  | .chart command => [.called command]
  | .emit _ | .set _ _ | .run _ => []

/-- What the values of a loop note when they are looked up. -/
def Loop.Source.events : Loop.Source → List Event
  | .file name => [.opened name]
  | .range .. | .items _ => []

/-- What an act notes by itself. -/
def Act.events (env : Environment) : Act φ → List Event
  | call p =>
    (if env.traced then [.traced p.record.line p.record.tokens] else []) ++
      match p.request? env with
      | some request => request.events env p.world
      | none => []
  | loop header _ w =>
    match Loop.Header.ofRecord (header.record w.store) with
    | .ok found => found.source.events
    | .error _ => []
  | data header rows w =>
    match Data.target (header.record w.store) with
    | .ok name => [.saved name (Data.contents rows)]
    | .error _ => []

/-- Between the two states the journal grows by what the acts note; the latest event comes first. -/
def World.Notes (env : Environment) (w : World φ) (as : List (Act φ)) (v : World φ) : Prop :=
  v.journal = (as.flatMap (Act.events env)).reverse ++ w.journal

namespace World.Notes

variable {env : Environment} {u v w : World φ} {as bs : List (Act φ)} {a : Act φ}

theorem nil (w : World φ) : w.Notes env [] w := rfl

theorem append (h : u.Notes env as v) (h' : v.Notes env bs w) : u.Notes env (as ++ bs) w := by
  rw [Notes] at h h' ⊢
  rw [h', h, List.flatMap_append, List.reverse_append, List.append_assoc]

/-- An act notes what it does by itself, and then its nested acts follow. -/
theorem cons (h : v.journal = (a.events env).reverse ++ u.journal) (h' : v.Notes env bs w) :
    u.Notes env (a :: bs) w := by
  rw [Notes] at h' ⊢
  rw [h', h, List.flatMap_cons, List.reverse_append, List.append_assoc]

theorem single (h : v.journal = (a.events env).reverse ++ u.journal) : u.Notes env [a] v :=
  .cons h (.nil v)

end World.Notes

/-! ## What leaves the journal alone -/

theorem World.journal_write (w : World φ) (data : ByteArray) :
    (w.write data).world.journal = w.journal := by
  rw [World.write]
  split <;> rfl

theorem journal_map_leave (o : Outcome φ) :
    (o.map World.leave).world.journal = o.world.journal := by
  cases o <;> rfl

theorem journal_runAssignment (r : Record) (w : World φ) (line : Nat) :
    ((runAssignment r w).settle line).world.journal = w.journal := by
  rcases runAssignment_eq r w with ⟨f, hfault⟩ | ⟨store, random, -, hdone⟩
  · rw [hfault]
    rfl
  · rw [hdone]
    rfl

theorem journal_announce (env : Environment) (r : Record) (w : World φ) :
    (announce env r w).journal =
      (if env.traced then [.traced r.line r.tokens] else []).reverse ++ w.journal := by
  rw [announce]
  split <;> rfl

variable [FileStore φ] {env : Environment}

/-! ## Blocks -/

omit [FileStore φ] in
theorem notes_collect {α : Type*} {step : α → Step φ} {acts : α → World φ → List (Act φ)}
    (hstep : ∀ a (w : World φ), w.Notes env (acts a w) (step a w).world) (items : List α)
    (w : World φ) :
    w.Notes env (collect step acts items w) (runSteps (items.map step) w).world := by
  induction items generalizing w with
  | nil => exact .nil w
  | cons a rest ih =>
    have hfirst := hstep a w
    rw [collect, List.map_cons, runSteps_cons]
    cases h : step a w with
    | finished u =>
      rw [h] at hfirst
      exact hfirst.append (ih u)
    | refused u | exhausted u =>
      rw [h] at hfirst
      exact hfirst.append (.nil u)

theorem journal_loopRecords (env : Environment) (header : SourceLine) (body : List SourceLine)
    (w : World φ) :
    (loopRecords header body w).1.journal =
      ((Act.loop header body w).events env).reverse ++ w.journal := by
  rw [loopRecords, Act.events]
  cases Loop.Header.ofRecord (header.record w.store) with
  | error fault => rfl
  | ok loop =>
    obtain ⟨placeholder, source⟩ := loop
    cases source with
    | range first last step => rfl
    | items tokens => rfl
    | file name =>
      simp only [Loop.Source.values, World.open?]
      cases FileStore.read w.files name <;> rfl

theorem journal_runData (header : SourceLine) (rows : List SourceLine) (w : World φ) :
    ((runData header rows w).settle header.number).world.journal =
      ((Act.data header rows w).events env).reverse ++ w.journal := by
  rw [runData, Act.events]
  cases Data.target (header.record w.store) with
  | error fault => rfl
  | ok name =>
    simp only [World.save?]
    cases FileStore.write w.files name (Data.contents rows) <;> rfl

section Nested

variable {exec : Record → Step φ} {acts : Record → World φ → List (Act φ)}
  (hexec : ∀ r (w : World φ), w.Notes env (acts r w) (exec r w).world)
include hexec

theorem notes_block (b : Block) (w : World φ) :
    w.Notes env (b.acts exec acts w) (runBlock exec b w).world := by
  cases b with
  | directive l => exact hexec _ w
  | data header rows => exact .single (journal_runData header rows w)
  | loop header body =>
    have hjournal := journal_loopRecords env header body w
    rw [Block.acts, runBlock, runLoop_eq]
    rcases hrecords : loopRecords header body w with ⟨u, f | rs⟩
    · rw [hrecords] at hjournal
      exact .single hjournal
    · rw [hrecords] at hjournal
      simp only [Attempt.settle_outcome, runRecords_eq_runSteps]
      exact .cons hjournal (notes_collect hexec rs u)

theorem notes_blocks (bs : List Block) (w : World φ) :
    w.Notes env (blockActs exec acts bs w) (runBlocks exec bs w).world := by
  rw [blockActs, runBlocks_eq_runSteps]
  exact notes_collect (notes_block hexec) bs w

omit [FileStore φ] in
theorem notes_cell (line : Nat) (place : Grid.Cursor × String) (w : World φ) :
    w.Notes env (cellActs acts line place w) (runCell exec line place w).world := by
  rw [cellActs, runCell]
  split
  · exact hexec _ w
  · exact .nil w

/-! ## Requests -/

/-- The acts that a request nests come after what the request notes itself. -/
theorem notes_fulfil {p : Call φ} {request : Request} (hasks : p.Asks env request) :
    p.world.Notes env
      (.call p :: nestedActs env exec acts p.record.line request (announce env p.record p.world))
      ((fulfil env exec p.record.line request (announce env p.record p.world)).settle
        p.record.line).world := by
  have hevents : (Act.call p).events env =
      (if env.traced then [.traced p.record.line p.record.tokens] else []) ++
        request.events env p.world := by
    rw [Act.events, Call.request?_eq_some_iff.2 hasks]
  have hannounced (v : World φ) (hv : v.journal =
      (request.events env p.world).reverse ++ (announce env p.record p.world).journal) :
      v.journal = ((Act.call p).events env).reverse ++ p.world.journal := by
    rw [hv, hevents, journal_announce, List.reverse_append, List.append_assoc]
  cases request with
  | emit elements => exact .single (hannounced _ (World.journal_write _ _))
  | set name value => exact .single (hannounced _ rfl)
  | run text =>
    exact .cons (hannounced (announce env p.record p.world) rfl) (notes_blocks hexec _ _)
  | chart command =>
    rw [fulfil]
    rcases runChart_cases env command (announce env p.record p.world) with
      ⟨reason, h⟩ | ⟨printed, h⟩ <;> rw [h]
    · exact .single (hannounced _ rfl)
    · exact .single (hannounced _ (World.journal_write _ _))
  | fillGrid file layout =>
    rw [nestedActs, fulfil, World.open?]
    cases FileStore.read (announce env p.record p.world).files file with
    | error reason => exact .single (hannounced _ rfl)
    | ok contents =>
      simp only [Attempt.settle_outcome, runGrid_eq_runSteps]
      exact .cons (hannounced ((announce env p.record p.world).note (.opened file)) rfl)
        (notes_collect (notes_cell hexec p.record.line) _ _)
  | enter name =>
    rw [nestedActs, fulfil, runInclude, World.open?, Call.announce_includes]
    split
    · rename_i hlimit
      exact .single (hannounced _ (by rw [Request.events, if_pos hlimit]; rfl))
    · rename_i hlimit
      have hopening : (p.opening env name).journal =
          (Request.events env p.world (.enter name)).reverse ++
            (announce env p.record p.world).journal := by
        rw [Request.events, if_neg hlimit]
        rfl
      cases FileStore.read (announce env p.record p.world).files name with
      | error reason => exact .single (hannounced _ hopening)
      | ok contents =>
        have hinside := notes_blocks hexec (Source.ofText contents).blocks
          ((p.opening env name).enter name)
        -- Leaving the file changes the list of included files only.
        exact .cons (hannounced _ hopening) ((journal_map_leave _).trans hinside)

end Nested

/-! ## Records and runs -/

theorem notes_dispatch (env : Environment) (n : Nat) (r : Record) (w : World φ) :
    w.Notes env (acts env n r w) (dispatch env n r w).world := by
  induction n generalizing r w with
  | zero => exact .nil w
  | succ n ih =>
    rw [dispatch_succ, execute, acts]
    have hnone (h : (⟨r, w⟩ : Call φ).request? env = none) :
        (announce env r w).journal = ((Act.call ⟨r, w⟩).events env).reverse ++ w.journal := by
      rw [journal_announce, Act.events, h, List.append_nil]
    cases hd : env.vocabulary.get? r.keyword with
    | none =>
      have hrequest : (⟨r, w⟩ : Call φ).request? env = none := by
        rw [Call.request?, hd, Option.bind_none]
      exact .single ((journal_runAssignment r _ _).trans (hnone hrequest))
    | some d =>
      simp only [Call.announce_store]
      cases hask : d.ask w.store r with
      | error fault =>
        have hrequest : (⟨r, w⟩ : Call φ).request? env = none := by
          rw [Call.request?, hd, Option.bind_some, hask]
          rfl
        exact .single (hnone hrequest)
      | ok request => exact notes_fulfil (p := ⟨r, w⟩) ih ⟨d, hd, hask⟩

/-- The journal of a run is what its acts note, in order, the latest event first. -/
theorem journal_run (env : Environment) (levels : Nat) (source : Source) (w : World φ) :
    (run env levels source w).world.journal =
      ((history env levels source w).flatMap (Act.events env)).reverse ++ w.journal :=
  notes_blocks (notes_dispatch env levels) source.blocks w.renew

end DeckScript
