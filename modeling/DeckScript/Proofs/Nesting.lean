import DeckScript.Proofs.Levels
import DeckScript.Proofs.Standard
import Mathlib.Logic.Relation

/-!
# Nested records

A record may nest others: an included file's lines, and the cells of a grid. A run that exhausts
every number of levels has a record that does so by itself, and that record nests another one of
the same sort. Here the nesting is followed from record to record, without any mention of levels.

## Main definitions

* `ReachedBefore` — the items of a list in front of one are carried out, and this is the state
* `Block.Carries`, `Carried` — a record that a block, and a list of blocks, carries out
* `Call` — a record in the state in which it is carried out
* `Call.Includes`, `Call.Cell`, `Call.Nests` — a call is nested in another one, and how
* `Call.Endless` — carrying out the record exhausts every number of levels

## Main results

* `Call.Nests.isExhausted` — a call takes a level more than what is nested in it
* `Call.Endless.exists_nests` — an endless call nests an endless call
* `exists_carried` — a run that exhausts every number of levels carries out an endless call
-/

namespace DeckScript

variable {φ : Type}

/-! ## The way to an item -/

section Reached

variable {α : Type*} {step : Nat → α → Step φ}

/-- With enough levels, the items in front of `a` finish in the state `v`. -/
def ReachedBefore (step : Nat → α → Step φ) (items : List α) (w : World φ) (a : α)
    (v : World φ) : Prop :=
  ∃ before after n, items = before ++ a :: after ∧
    runSteps (before.map (step n)) w = .finished v

variable (hstep : ∀ {n m : Nat}, n ≤ m → ∀ a w, Unless (step n a w) (step m a w))
include hstep

theorem runSteps_unless {n m : Nat} (h : n ≤ m) (items : List α) (w : World φ) :
    Unless (runSteps (items.map (step n)) w) (runSteps (items.map (step m)) w) := by
  induction items generalizing w with
  | nil => exact .refl _
  | cons a rest ih => exact (hstep h a w).andThen ih

/-- An item that is reached and exhausts its levels exhausts those of all items. -/
theorem ReachedBefore.isExhausted {items : List α} {a : α} {w v : World φ}
    (h : ReachedBefore step items w a v) {n : Nat} (ha : (step n a v).isExhausted) :
    (runSteps (items.map (step n)) w).isExhausted := by
  obtain ⟨before, after, m, rfl, hfinished⟩ := h
  rw [List.map_append, runSteps_append, List.map_cons]
  have hbefore : (runSteps (before.map (step n)) w).isExhausted ∨
      runSteps (before.map (step n)) w = .finished v := by
    rcases Nat.le_total n m with hnm | hmn
    · rw [← hfinished]
      exact runSteps_unless hstep hnm before w
    · have hunless := runSteps_unless hstep hmn before w
      rw [hfinished] at hunless
      exact .inr (hunless.eq rfl)
  rcases hbefore with hbefore | hbefore
  · exact Outcome.isExhausted_andThen hbefore _
  · rw [hbefore, Outcome.finished_andThen, runSteps_cons]
    exact Outcome.isExhausted_andThen ha _

/-- What is reached behind the first item once that is finished. -/
theorem ReachedBefore.cons {n : Nat} {a b : α} {rest : List α} {w u v : World φ}
    (hfirst : step n a w = .finished u) (h : ReachedBefore step rest u b v) :
    ReachedBefore step (a :: rest) w b v := by
  obtain ⟨before, after, m, rfl, hfinished⟩ := h
  refine ⟨a :: before, after, max n m, rfl, ?_⟩
  have ha : step (max n m) a w = .finished u := by
    have hunless := hstep (Nat.le_max_left n m) a w
    rw [hfirst] at hunless
    exact hunless.eq rfl
  have hunless := runSteps_unless hstep (Nat.le_max_right n m) before u
  rw [hfinished] at hunless
  rw [List.map_cons, runSteps_cons, ha, Outcome.finished_andThen]
  exact hunless.eq rfl

/-- Steps that do the same in every state in which they are reached make up the same run. -/
theorem runSteps_congr_of_reachedBefore {other : α → Step φ} {n : Nat} {items : List α}
    {w : World φ} (h : ∀ a v, ReachedBefore step items w a v → step n a v = other a v) :
    runSteps (items.map (step n)) w = runSteps (items.map other) w := by
  induction items generalizing w with
  | nil => rfl
  | cons a rest ih =>
    rw [List.map_cons, List.map_cons, runSteps_cons, runSteps_cons,
      ← h a w ⟨[], rest, n, rfl, rfl⟩]
    cases hfirst : step n a w with
    | refused u => rfl
    | exhausted u => rfl
    | finished u => exact ih fun b v hreached => h b v (hreached.cons hstep hfirst)

variable (step) in
/-- If items exhaust every number of levels, then one of them that is reached does. -/
theorem exists_reachedBefore {items : List α} {w : World φ}
    (h : ∀ n, (runSteps (items.map (step n)) w).isExhausted) :
    ∃ a v, ReachedBefore step items w a v ∧ ∀ n, (step n a v).isExhausted := by
  induction items generalizing w with
  | nil => cases h 0
  | cons a rest ih =>
    by_cases ha : ∀ n, (step n a w).isExhausted
    · exact ⟨a, w, ⟨[], rest, 0, rfl, rfl⟩, ha⟩
    obtain ⟨m, hm⟩ := not_forall.1 ha
    have hm : (step m a w).isExhausted = false := by simpa using hm
    -- With at least `m` levels the first item always has the same outcome.
    have hsame {n : Nat} (hmn : m ≤ n) : step n a w = step m a w := (hstep hmn a w).eq hm
    cases hfirst : step m a w with
    | exhausted u => rw [hfirst] at hm; cases hm
    | refused u =>
      have hrun := h m
      rw [List.map_cons, runSteps_cons, hfirst] at hrun
      cases hrun
    | finished u =>
      have hrest (n : Nat) : (runSteps (rest.map (step n)) u).isExhausted := by
        have hrun := h (max m n)
        rw [List.map_cons, runSteps_cons, hsame (Nat.le_max_left m n), hfirst] at hrun
        exact (runSteps_unless hstep (Nat.le_max_right m n) rest u).isExhausted hrun
      obtain ⟨b, v, hreached, hb⟩ := ih hrest
      exact ⟨b, v, hreached.cons hstep hfirst, hb⟩

end Reached

variable [FileStore φ]

theorem ReachedBefore.precedes {α : Type*} {step : Nat → α → Step φ} {items : List α} {a : α}
    {w v : World φ} (hstep : ∀ n a, Advances (step n a)) (h : ReachedBefore step items w a v) :
    w.Precedes v := by
  obtain ⟨before, _, n, _, hfinished⟩ := h
  have hbefore := advances_runSteps_map (hstep n) before w
  rwa [hfinished] at hbefore

/-! ## The records that a script carries out -/

/-- The block, in the state `w`, carries out the record `r` in the state `v`. -/
inductive Block.Carries (env : Environment) : Block → World φ → Record → World φ → Prop
  | directive (l : SourceLine) (w : World φ) :
    Carries env (.directive l) w (l.record w.store) w
  | loop {header : SourceLine} {body : List SourceLine} {w u v : World φ} {rs : List Record}
      {r : Record} :
    loopRecords header body w = (u, .ok rs) → ReachedBefore (dispatch env) rs u r v →
      Carries env (.loop header body) w r v

/-- Running the blocks from the state `w` carries out the record `r` in the state `v`. -/
def Carried (env : Environment) (bs : List Block) (w : World φ) (r : Record) (v : World φ) :
    Prop :=
  ∃ b u, ReachedBefore (fun n => runBlock (dispatch env n)) bs w b u ∧ b.Carries env u r v

theorem Block.Carries.precedes {env : Environment} {b : Block} {w v : World φ} {r : Record}
    (h : b.Carries env w r v) : w.Precedes v := by
  cases h with
  | directive l => exact .refl w
  | @loop header body _ u _ rs _ hrecords hreached =>
    have hlookup := precedes_loopRecords header body w
    rw [hrecords] at hlookup
    exact hlookup.trans (hreached.precedes (advances_dispatch env))

theorem Carried.precedes {env : Environment} {bs : List Block} {w v : World φ} {r : Record}
    (h : Carried env bs w r v) : w.Precedes v := by
  obtain ⟨b, u, hreached, hcarries⟩ := h
  have hblocks : ∀ n b, Advances (runBlock (dispatch env n) b : Step φ) :=
    fun n b => advances_runBlock (advances_dispatch env n) b
  exact (hreached.precedes hblocks).trans hcarries.precedes

theorem Block.Carries.isExhausted {env : Environment} {b : Block} {w v : World φ} {r : Record}
    (h : b.Carries env w r v) {n : Nat} (hr : (dispatch env n r v).isExhausted) :
    (runBlock (dispatch env n) b w).isExhausted := by
  cases h with
  | directive l => exact hr
  | loop hrecords hreached =>
    simp only [runBlock, runLoop_eq, hrecords, Attempt.settle_outcome, runRecords_eq_runSteps]
    exact hreached.isExhausted (dispatch_unless env) hr

theorem Carried.isExhausted {env : Environment} {bs : List Block} {w v : World φ} {r : Record}
    (h : Carried env bs w r v) {n : Nat} (hr : (dispatch env n r v).isExhausted) :
    (runBlocks (dispatch env n) bs w).isExhausted := by
  obtain ⟨b, u, hreached, hcarries⟩ := h
  rw [runBlocks_eq_runSteps]
  exact hreached.isExhausted (fun h => runBlock_unless env h) (hcarries.isExhausted hr)

theorem exists_carries {env : Environment} {b : Block} {w : World φ}
    (h : ∀ n, (runBlock (dispatch env n) b w).isExhausted) :
    ∃ r v, b.Carries env w r v ∧ ∀ n, (dispatch env n r v).isExhausted := by
  cases b with
  | directive l => exact ⟨_, w, .directive l w, h⟩
  | loop header body =>
    simp only [runBlock, runLoop_eq] at h
    rcases hrecords : loopRecords header body w with ⟨u, fault | rs⟩
    · rw [hrecords] at h
      cases h 0
    · simp only [hrecords, Attempt.settle_outcome, runRecords_eq_runSteps] at h
      obtain ⟨r, v, hreached, hr⟩ := exists_reachedBefore (dispatch env) (dispatch_unless env) h
      exact ⟨r, v, .loop hrecords hreached, hr⟩
  | data header rows =>
    have hdata := h 0
    rw [runBlock, runData] at hdata
    split at hdata
    · cases hdata
    · dsimp only [World.save?] at hdata
      split at hdata <;> cases hdata

/-- A run that exhausts every number of levels carries out a record that does. -/
theorem exists_carried {env : Environment} {bs : List Block} {w : World φ}
    (h : ∀ n, (runBlocks (dispatch env n) bs w).isExhausted) :
    ∃ r v, Carried env bs w r v ∧ ∀ n, (dispatch env n r v).isExhausted := by
  simp only [runBlocks_eq_runSteps] at h
  obtain ⟨b, u, hreached, hb⟩ :=
    exists_reachedBefore (fun n => runBlock (dispatch env n))
      (fun h => runBlock_unless env h) h
  obtain ⟨r, v, hcarries, hr⟩ := exists_carries hb
  exact ⟨r, v, ⟨b, u, hreached, hcarries⟩, hr⟩

/-! ## What takes no levels -/

omit [FileStore φ] in
theorem World.isExhausted_write (w : World φ) (data : ByteArray) :
    (w.write data).isExhausted = false := by
  rw [World.write]
  split <;> rfl

omit [FileStore φ] in
theorem isExhausted_runAssignment (r : Record) (w : World φ) (line : Nat) :
    ((runAssignment r w).settle line).isExhausted = false := by
  rw [runAssignment]
  split
  · split <;> rfl
  · split
    · split <;> rfl
    · rfl

section Requests

variable {env : Environment} {exec : Record → Step φ} {w : World φ} {line : Nat}
  {name contents : String}

theorem fulfil_enter (hdepth : w.includes.length < env.includeLimit)
    (hread : FileStore.read w.files name = .ok contents) :
    fulfil env exec line (.enter name) w =
      .outcome ((runBlocks exec (Source.ofText contents).blocks
        ((w.note (.opened name)).enter name)).map World.leave) := by
  simp only [fulfil, runInclude, if_neg (Nat.not_le.2 hdepth), World.open?, hread, runText]

theorem fulfil_fillGrid {layout : Grid.Layout}
    (hread : FileStore.read w.files name = .ok contents) :
    fulfil env exec line (.fillGrid name layout) w =
      .outcome (runSteps ((layout.places layout.start (Text.lines contents)).map
        (runCell exec line)) (w.note (.opened name))) := by
  simp only [fulfil, World.open?, hread, runGrid_eq_runSteps]

end Requests

/-! ## Calls -/

/-- A record and the state in which it is carried out. -/
structure Call (φ : Type) where
  record : Record
  world : World φ

namespace Call

variable {env : Environment} {p q : Call φ}

/-- The directive of a call asks for something. -/
def Asks (env : Environment) (p : Call φ) (request : Request) : Prop :=
  ∃ d, env.vocabulary.get? p.record.keyword = some d ∧
    d.ask p.world.store p.record = .ok request

/-- The state in which a call opens a file. -/
def opening (env : Environment) (p : Call φ) (name : String) : World φ :=
  (announce env p.record p.world).note (.opened name)

/-- The call `q` is a line of the file that the call `p` includes. -/
inductive Includes (env : Environment) (p q : Call φ) : Prop
  | intro {name contents : String} :
    p.Asks env (.enter name) → p.world.includes.length < env.includeLimit →
    FileStore.read p.world.files name = .ok contents →
    Carried env (Source.ofText contents).blocks ((p.opening env name).enter name) q.record
      q.world →
    Includes env p q

/-- The call `q` is a cell of the grid that the call `p` fills. -/
inductive Cell (env : Environment) (p q : Call φ) : Prop
  | intro {file contents : String} {layout : Grid.Layout} {place : Grid.Cursor × String} :
    p.Asks env (.fillGrid file layout) → FileStore.read p.world.files file = .ok contents →
    ReachedBefore (fun n => runCell (dispatch env n) p.record.line)
      (layout.places layout.start (Text.lines contents)) (p.opening env file) place q.world →
    q.record = place.1.cell q.world.store p.record.line place.2 →
    Grid.leastTokens ≤ q.record.length →
    Cell env p q

/-- The call `q` is nested in the call `p`. -/
def Nests (env : Environment) (p q : Call φ) : Prop := p.Includes env q ∨ p.Cell env q

/-- Carrying out the record exhausts every number of levels. -/
def Endless (env : Environment) (p : Call φ) : Prop :=
  ∀ n, (dispatch env n p.record p.world).isExhausted

omit [FileStore φ] in
theorem announce_files (env : Environment) (r : Record) (w : World φ) :
    (announce env r w).files = w.files := by
  rw [announce]
  split <;> rfl

omit [FileStore φ] in
theorem announce_includes (env : Environment) (r : Record) (w : World φ) :
    (announce env r w).includes = w.includes := by
  rw [announce]
  split <;> rfl

omit [FileStore φ] in
theorem announce_store (env : Environment) (r : Record) (w : World φ) :
    (announce env r w).store = w.store := by
  rw [announce]
  split <;> rfl

/-- What a call does that asks for something. -/
theorem Asks.dispatch_succ {request : Request} (h : p.Asks env request) (n : Nat) :
    dispatch env (n + 1) p.record p.world =
      (fulfil env (dispatch env n) p.record.line request
        (announce env p.record p.world)).settle p.record.line := by
  obtain ⟨d, hd, hask⟩ := h
  rw [DeckScript.dispatch_succ, execute, hd]
  simp only [announce_store, hask]

/-- At the limit an included file is refused, as a fault of the line that includes it. -/
theorem Asks.dispatch_of_limit {name : String} (h : p.Asks env (.enter name))
    (hlimit : env.includeLimit ≤ p.world.includes.length) (n : Nat) :
    dispatch env (n + 1) p.record p.world =
      .finished ((announce env p.record p.world).blame p.record.line
        (.depth name env.includeLimit)) := by
  rw [h.dispatch_succ, fulfil, runInclude, if_pos (by rwa [announce_includes]),
    Attempt.settle_fault]

theorem Includes.isExhausted (h : p.Includes env q) {n : Nat}
    (hq : (dispatch env n q.record q.world).isExhausted) :
    (dispatch env (n + 1) p.record p.world).isExhausted := by
  obtain ⟨hasks, hdepth, hread, hcarried⟩ := h
  rw [hasks.dispatch_succ, fulfil_enter (by rwa [announce_includes])
    (by rwa [announce_files]), Outcome.isExhausted_settle_outcome, Outcome.isExhausted_map]
  exact hcarried.isExhausted hq

theorem Cell.isExhausted (h : p.Cell env q) {n : Nat}
    (hq : (dispatch env n q.record q.world).isExhausted) :
    (dispatch env (n + 1) p.record p.world).isExhausted := by
  obtain ⟨hasks, hread, hreached, hrecord, hlength⟩ := h
  rw [hasks.dispatch_succ, fulfil_fillGrid (by rwa [announce_files]),
    Outcome.isExhausted_settle_outcome]
  refine hreached.isExhausted (fun h => runCell_unless env h _) ?_
  rw [runCell, ← hrecord, if_pos hlength]
  exact hq

/-- A call takes a level more than what is nested in it. -/
theorem Nests.isExhausted (h : p.Nests env q) {n : Nat}
    (hq : (dispatch env n q.record q.world).isExhausted) :
    (dispatch env (n + 1) p.record p.world).isExhausted := by
  rcases h with h | h
  · exact h.isExhausted hq
  · exact h.isExhausted hq

theorem Nests.endless (h : p.Nests env q) (hq : q.Endless env) : p.Endless env
  | 0 => rfl
  | n + 1 => h.isExhausted (hq n)

/-! ## Endless calls -/

/-- A call that asks for nothing ends. -/
theorem Endless.exists_asks (hp : p.Endless env) : ∃ request, p.Asks env request := by
  have hone := hp 1
  rw [DeckScript.dispatch_succ, execute] at hone
  cases hd : env.vocabulary.get? p.record.keyword with
  | none =>
    rw [hd, isExhausted_runAssignment] at hone
    cases hone
  | some d =>
    simp only [hd, announce_store] at hone
    cases hask : d.ask p.world.store p.record with
    | error fault => rw [hask] at hone; cases hone
    | ok request => exact ⟨request, d, hd, hask⟩

theorem Endless.fulfil {request : Request} (hp : p.Endless env) (h : p.Asks env request)
    (n : Nat) :
    ((fulfil env (dispatch env n) p.record.line request
      (announce env p.record p.world)).settle p.record.line).isExhausted := by
  rw [← h.dispatch_succ]
  exact hp (n + 1)

/-- An endless call that includes a file includes an endless call. -/
theorem Endless.exists_includes {name : String} (hp : p.Endless env)
    (h : p.Asks env (.enter name)) : ∃ q, p.Includes env q ∧ q.Endless env := by
  have hrun := hp.fulfil h
  by_cases hdepth : env.includeLimit ≤ p.world.includes.length
  · have hzero := hrun 0
    simp only [DeckScript.fulfil, runInclude, announce_includes, if_pos hdepth] at hzero
    cases hzero
  cases hread : FileStore.read p.world.files name with
  | error reason =>
    have hzero := hrun 0
    simp only [DeckScript.fulfil, runInclude, announce_includes, if_neg hdepth, World.open?,
      announce_files, hread] at hzero
    cases hzero
  | ok contents =>
    rw [Nat.not_le] at hdepth
    have hfile (n : Nat) : (runBlocks (dispatch env n) (Source.ofText contents).blocks
        ((p.opening env name).enter name)).isExhausted := by
      have hn := hrun n
      rwa [fulfil_enter (by rwa [announce_includes]) (by rwa [announce_files]),
        Outcome.isExhausted_settle_outcome, Outcome.isExhausted_map] at hn
    obtain ⟨r, v, hcarried, hr⟩ := exists_carried hfile
    exact ⟨⟨r, v⟩, ⟨h, hdepth, hread, hcarried⟩, hr⟩

/-- An endless call that fills a grid has an endless cell. -/
theorem Endless.exists_cell {file : String} {layout : Grid.Layout} (hp : p.Endless env)
    (h : p.Asks env (.fillGrid file layout)) : ∃ q, p.Cell env q ∧ q.Endless env := by
  have hrun := hp.fulfil h
  cases hread : FileStore.read p.world.files file with
  | error reason =>
    have hzero := hrun 0
    simp only [DeckScript.fulfil, World.open?, announce_files, hread] at hzero
    cases hzero
  | ok contents =>
    have hcells (n : Nat) : (runSteps ((layout.places layout.start (Text.lines contents)).map
        (runCell (dispatch env n) p.record.line)) (p.opening env file)).isExhausted := by
      have hn := hrun n
      rwa [fulfil_fillGrid (by rwa [announce_files]), Outcome.isExhausted_settle_outcome] at hn
    obtain ⟨place, v, hreached, hplace⟩ := exists_reachedBefore
      (fun n => runCell (dispatch env n) p.record.line)
      (fun h => runCell_unless env h _) hcells
    -- A line with too few tokens does nothing, so the endless one has enough of them.
    have hlength : Grid.leastTokens ≤ (place.1.cell v.store p.record.line place.2).length := by
      by_contra hshort
      have hzero := hplace 0
      rw [runCell, if_neg hshort] at hzero
      cases hzero
    refine ⟨⟨_, v⟩, ⟨h, hread, hreached, rfl, hlength⟩, ?_⟩
    intro n
    have hn := hplace n
    rwa [runCell, if_pos hlength] at hn

/-- With the standard vocabulary an endless call nests an endless call. -/
theorem Endless.exists_nests (hstandard : env.vocabulary = Vocabulary.standard)
    (hp : p.Endless env) : ∃ q, p.Nests env q ∧ q.Endless env := by
  obtain ⟨request, hasks⟩ := hp.exists_asks
  have hrequest : request.IsStandard := by
    obtain ⟨d, hd, hask⟩ := hasks
    exact Vocabulary.isStandard_of_ask (hstandard ▸ hd) hask
  cases request with
  | set name value => exact hrequest.elim
  | run text => exact hrequest.elim
  | emit elements =>
    have hzero := hp.fulfil hasks 0
    rw [DeckScript.fulfil, Outcome.isExhausted_settle_outcome, World.emit,
      World.isExhausted_write] at hzero
    cases hzero
  | chart command =>
    have hzero := hp.fulfil hasks 0
    rw [DeckScript.fulfil] at hzero
    rcases runChart_cases env command (announce env p.record p.world) with
      ⟨reason, h⟩ | ⟨printed, h⟩ <;> rw [h] at hzero
    · cases hzero
    · rw [Outcome.isExhausted_settle_outcome, World.isExhausted_write] at hzero
      cases hzero
  | enter name =>
    obtain ⟨q, hq, hendless⟩ := hp.exists_includes hasks
    exact ⟨q, .inl hq, hendless⟩
  | fillGrid file layout =>
    obtain ⟨q, hq, hendless⟩ := hp.exists_cell hasks
    exact ⟨q, .inr hq, hendless⟩

end Call

end DeckScript
