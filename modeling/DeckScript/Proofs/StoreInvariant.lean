import DeckScript.Proofs.Termination

/-!
# What assignments keep

With the standard vocabulary the variables change in assignments only, whether these stand in the
script, in an included file or in a grid. So a property of the variables that every assignment of a
run keeps, and that they have at the start, they have at every moment of the run.

## Main definitions

* `Record.Assigns`, `Call.Assigns` — an assignment without a fault
* `Call.Keeps` — a call that leaves variables with a property if it finds such
* `Moment` — a state at some moment of a run

## Main results

* `keeps_dispatch` — what the assignments nested in a call keep, the call keeps
* `Moment.keeps` — what all assignments of a run keep holds at every moment
-/

namespace DeckScript

open Relation

variable {φ : Type}

/-! ## Assignments -/

/-- The record is an assignment, and it has no fault. -/
def Record.Assigns (r : Record) (w : World φ) : Prop :=
  if r.isAssignment then ∃ after, assign w.store w.random r = .ok after
  else r.isCompound ∧ ∃ store, assignCompound w.store r = .ok store

/-- The state after an assignment, before a fault goes into the report: without a fault there is a
new value under the first token, and otherwise the variables stay as they are. -/
theorem store_runAssignment [FileStore φ] (r : Record) (w : World φ) :
    (¬ r.Assigns w ∧ (runAssignment r w).state.store = w.store) ∨
      (r.Assigns w ∧
        ∃ value, (runAssignment r w).state.store = w.store.insert r.keyword value) := by
  rw [runAssignment, Record.Assigns]
  split
  · cases hassign : assign w.store w.random r with
    | error fault => exact .inl ⟨by simp, rfl⟩
    | ok after =>
      obtain ⟨p, -, rfl⟩ := exists_of_map_eq_ok hassign
      exact .inr ⟨⟨_, rfl⟩, p.1, rfl⟩
  · split
    · rename_i hcompound
      cases hassign : assignCompound w.store r with
      | error fault => exact .inl ⟨by simp, rfl⟩
      | ok store =>
        obtain ⟨value, -, rfl⟩ := exists_of_map_eq_ok hassign
        exact .inr ⟨⟨hcompound, _, rfl⟩, value, rfl⟩
    · rename_i hcompound
      exact .inl ⟨fun h => hcompound h.1, rfl⟩

theorem World.store_write (w : World φ) (data : ByteArray) :
    (w.write data).world.store = w.store := by
  rw [write]
  rcases w.output.write data with ⟨output, _ | _⟩ <;> rfl

theorem Attempt.store_settle [FileStore φ] (a : Attempt φ) (line : Nat) :
    (a.settle line).world.store = a.state.store := by cases a <;> rfl

/-! ## What the items of a list keep -/

section Reached

variable {α : Type*} {step : Nat → α → Step φ} {Q : World φ → Prop}

theorem ReachedBefore.append {before : List α} {w v : World φ} {a : α}
    (h : ReachedBefore step before w a v) (after : List α) :
    ReachedBefore step (before ++ after) w a v := by
  obtain ⟨front, back, n, rfl, hfinished⟩ := h
  exact ⟨front, back ++ after, n, by simp, hfinished⟩

variable (hstep : ∀ {n m : Nat}, n ≤ m → ∀ a w, Unless (step n a w) (step m a w))
include hstep

/-- What every item that is reached keeps, all of them together keep. -/
theorem keeps_runSteps {n : Nat} {items : List α} {w : World φ}
    (hitems : ∀ a v, ReachedBefore step items w a v → Q v → Q (step n a v).world) (hw : Q w) :
    Q (runSteps (items.map (step n)) w).world := by
  induction items generalizing w with
  | nil => exact hw
  | cons a rest ih =>
    have ha := hitems a w ⟨[], rest, 0, rfl, rfl⟩ hw
    rw [List.map_cons, runSteps_cons]
    cases hfirst : step n a w with
    | finished u =>
      rw [hfirst] at ha
      exact ih (fun b v hb => hitems b v (hb.cons hstep hfirst)) ha
    | refused u | exhausted u => rwa [hfirst] at ha

/-- What every item that is reached keeps, each of them finds. -/
theorem ReachedBefore.keeps {items : List α} {w v : World φ} {a : α}
    (h : ReachedBefore step items w a v)
    (hitems : ∀ n a v, ReachedBefore step items w a v → Q v → Q (step n a v).world) (hw : Q w) :
    Q v := by
  obtain ⟨before, after, n, rfl, hfinished⟩ := h
  have hbefore : Q (runSteps (before.map (step n)) w).world :=
    keeps_runSteps hstep (fun b u hb => hitems n b u (hb.append (a :: after))) hw
  rwa [hfinished] at hbefore

end Reached

variable [FileStore φ] {env : Environment} {P : Store → Prop}

/-! ## What the records of blocks keep -/

theorem store_loopRecords (header : SourceLine) (body : List SourceLine) (w : World φ) :
    (loopRecords header body w).1.store = w.store := by
  rcases loopRecords_fst header body w with h | ⟨name, h⟩
  · rw [h]
  · rw [h]
    rfl

theorem store_runData (header : SourceLine) (rows : List SourceLine) (w : World φ) :
    (runData header rows w).state.store = w.store := by
  rw [runData]
  split
  · rfl
  · dsimp only [World.save?]
    split
    · rename_i heq
      obtain ⟨rfl, -⟩ := Prod.mk.inj heq
      rfl
    · rename_i heq
      obtain ⟨rfl, -⟩ := Prod.mk.inj heq
      rfl

theorem keeps_runBlock {n : Nat} {b : Block} {w : World φ}
    (hrecords : ∀ r v, b.Carries env w r v → P v.store → P (dispatch env n r v).world.store)
    (hw : P w.store) : P (runBlock (dispatch env n) b w).world.store := by
  cases b with
  | directive l => exact hrecords _ w (.directive l w) hw
  | loop header body =>
    rw [runBlock, Attempt.store_settle, runLoop_eq]
    have hstore := store_loopRecords header body w
    rcases hloop : loopRecords header body w with ⟨u, fault | rs⟩
    · rw [hloop] at hstore
      exact hstore ▸ hw
    · rw [hloop] at hstore
      dsimp only [Attempt.state]
      rw [runRecords_eq_runSteps]
      exact keeps_runSteps (Q := fun v => P v.store) (dispatch_unless env)
        (fun r v hr => hrecords r v (.loop hloop hr)) (hstore ▸ hw)
  | data header rows =>
    rw [runBlock, Attempt.store_settle, store_runData]
    exact hw

theorem keeps_runBlocks {n : Nat} {bs : List Block} {w : World φ}
    (hrecords : ∀ r v, Carried env bs w r v → P v.store → P (dispatch env n r v).world.store)
    (hw : P w.store) : P (runBlocks (dispatch env n) bs w).world.store := by
  rw [runBlocks_eq_runSteps]
  exact keeps_runSteps (Q := fun v => P v.store)
    (fun h => runBlock_unless env h)
    (fun b v hb hv => keeps_runBlock (fun r u hr => hrecords r u ⟨b, v, hb, hr⟩) hv) hw

theorem Carried.keeps {bs : List Block} {w v : World φ} {r : Record}
    (h : Carried env bs w r v)
    (hrecords : ∀ n r v, Carried env bs w r v → P v.store → P (dispatch env n r v).world.store)
    (hw : P w.store) : P v.store := by
  obtain ⟨b, u, hreached, hcarries⟩ := h
  have hu : P u.store := hreached.keeps (Q := fun v => P v.store)
    (fun h => runBlock_unless env h)
    (fun n c x hc hx => keeps_runBlock (fun r y hr => hrecords n r y ⟨c, x, hc, hr⟩) hx) hw
  cases hcarries with
  | directive l => exact hu
  | @loop header body _ x _ rs _ hloop hr =>
    have hstore := store_loopRecords header body u
    rw [hloop] at hstore
    exact hr.keeps (Q := fun v => P v.store) (dispatch_unless env)
      (fun n s y hs => hrecords n s y ⟨_, u, hreached, .loop hloop hs⟩) (hstore ▸ hu)

/-! ## What calls keep -/

namespace Call

/-- The record of the call is an assignment, and it has no fault. -/
def Assigns (env : Environment) (p : Call φ) : Prop :=
  env.vocabulary.get? p.record.keyword = none ∧ p.record.Assigns p.world

/-- If the call is an assignment, it keeps the property of the variables, whatever the value. -/
def Keeps (env : Environment) (P : Store → Prop) (p : Call φ) : Prop :=
  p.Assigns env → ∀ value, P p.world.store → P (p.world.store.insert p.record.keyword value)

end Call

omit [FileStore φ] in
theorem assigns_announce (env : Environment) (r : Record) (w : World φ) :
    r.Assigns (announce env r w) ↔ r.Assigns w := by
  rw [announce]
  split <;> rfl

/-- A directive keeps what the calls nested in it keep. -/
theorem keeps_fulfil (hstandard : env.vocabulary = .standard) {n : Nat} {p : Call φ}
    {request : Request} (hasks : p.Asks env request)
    (hnested : ∀ q, p.Nests env q → P q.world.store →
      P (dispatch env n q.record q.world).world.store)
    (hp : P (announce env p.record p.world).store) :
    P (fulfil env (dispatch env n) p.record.line request
      (announce env p.record p.world)).state.store := by
  have hrequest : request.IsStandard := by
    obtain ⟨d, hd, hask⟩ := hasks
    exact Vocabulary.isStandard_of_ask (hstandard ▸ hd) hask
  cases request with
  | set name value => exact hrequest.elim
  | run text => exact hrequest.elim
  | emit elements =>
    change P (World.write _ _).world.store
    rwa [World.store_write]
  | chart command =>
    rw [fulfil]
    rcases runChart_cases env command (announce env p.record p.world) with
      ⟨reason, h⟩ | ⟨printed, h⟩ <;> rw [h]
    · exact hp
    · change P (World.write _ _).world.store
      rwa [World.store_write]
  | enter name =>
    by_cases hlimit : env.includeLimit ≤ p.world.includes.length
    · simp only [fulfil, runInclude, Call.announce_includes, if_pos hlimit]
      exact hp
    cases hread : FileStore.read p.world.files name with
    | error reason =>
      simp only [fulfil, runInclude, Call.announce_includes, if_neg hlimit, World.open?,
        Call.announce_files, hread]
      exact hp
    | ok contents =>
      rw [Nat.not_le] at hlimit
      rw [fulfil_enter (by rwa [Call.announce_includes]) (by rwa [Call.announce_files])]
      change P (Outcome.map World.leave _).world.store
      rw [Outcome.world_map]
      exact keeps_runBlocks
        (fun r v hr => hnested ⟨r, v⟩ (.inl (.intro hasks hlimit hread hr))) hp
  | fillGrid file layout =>
    cases hread : FileStore.read p.world.files file with
    | error reason =>
      simp only [fulfil, World.open?, Call.announce_files, hread]
      exact hp
    | ok contents =>
      rw [fulfil_fillGrid (by rwa [Call.announce_files])]
      refine keeps_runSteps (Q := fun v => P v.store) (fun h => runCell_unless env h p.record.line)
        (fun place v hv hstore => ?_) hp
      rw [runCell]
      split
      · rename_i hlength
        exact hnested ⟨_, v⟩ (.inr (.intro hasks hread hv rfl hlength)) hstore
      · exact hstore

/-- What the assignments nested in a call keep, the call keeps. -/
theorem keeps_dispatch (hstandard : env.vocabulary = .standard) {n : Nat} {p : Call φ}
    (hall : ∀ q, ReflTransGen (Call.Nests env) p q → q.Keeps env P) (hp : P p.world.store) :
    P (dispatch env n p.record p.world).world.store := by
  -- Nested calls are carried out with one level less.
  induction n generalizing p with
  | zero => exact hp
  | succ n ih =>
    have hannounce := Call.announce_store env p.record p.world
    rw [dispatch_succ, Attempt.store_settle, execute]
    cases hd : env.vocabulary.get? p.record.keyword with
    | none =>
      dsimp only
      rcases store_runAssignment p.record (announce env p.record p.world) with
        ⟨-, hstore⟩ | ⟨hassigns, value, hstore⟩
      · rwa [hstore, hannounce]
      · rw [hstore, hannounce]
        exact hall p .refl ⟨hd, (assigns_announce env p.record p.world).1 hassigns⟩ value hp
    | some d =>
      simp only [hannounce]
      cases hask : d.ask p.world.store p.record with
      | error fault => exact hannounce ▸ hp
      | ok request =>
        refine keeps_fulfil hstandard ⟨d, hd, hask⟩ (fun q hq hstore => ?_) (hannounce ▸ hp)
        exact ih (fun q' hq' => hall q' (.head hq hq')) hstore

/-- What the assignments nested in a call keep, a call that is nested in it finds. -/
theorem Call.Nests.keeps (hstandard : env.vocabulary = .standard) {p q : Call φ}
    (h : p.Nests env q) (hall : ∀ q, ReflTransGen (Call.Nests env) p q → q.Keeps env P)
    (hp : P p.world.store) : P q.world.store := by
  have hannounce : P (announce env p.record p.world).store := by rwa [Call.announce_store]
  have hdispatch {n : Nat} {q : Call φ} (hq : p.Nests env q) (hstore : P q.world.store) :
      P (dispatch env n q.record q.world).world.store :=
    keeps_dispatch hstandard (fun q' hq' => hall q' (.head hq hq')) hstore
  rcases h with ⟨hasks, hlimit, hread, hcarried⟩ | ⟨hasks, hread, hreached, -, -⟩
  · exact hcarried.keeps
      (fun n r v hr => hdispatch (q := ⟨r, v⟩) (.inl (.intro hasks hlimit hread hr)))
      hannounce
  · refine hreached.keeps (Q := fun v => P v.store)
      (fun h => runCell_unless env h p.record.line) (fun n place v hv hstore => ?_) hannounce
    rw [runCell]
    split
    · rename_i hlength
      exact hdispatch (q := ⟨_, v⟩) (.inr (.intro hasks hread hv rfl hlength)) hstore
    · exact hstore

/-! ## Every moment of a run -/

/-- A state of a run: at its start, before and after a call, or at its end. -/
inductive Moment (env : Environment) (source : Source) (w : World φ) : World φ → Prop
  | start : Moment env source w w.renew
  | before {p : Call φ} : Reaches env source w p → Moment env source w p.world
  | after {p : Call φ} (levels : Nat) :
    Reaches env source w p → Moment env source w (dispatch env levels p.record p.world).world
  | finish (levels : Nat) : Moment env source w (run env levels source w).world

section Runs

variable {source : Source} {w : World φ} (hstandard : env.vocabulary = .standard)
  (hall : ∀ p, Reaches env source w p → p.Keeps env P) (hw : P w.store)
include hstandard hall hw

omit hw in
theorem Reaches.keeps_dispatch {p : Call φ} (h : Reaches env source w p) (hp : P p.world.store)
    (levels : Nat) : P (dispatch env levels p.record p.world).world.store := by
  obtain ⟨q, hcarried, hqp⟩ := h
  exact DeckScript.keeps_dispatch hstandard
    (fun p' hp' => hall p' ⟨q, hcarried, hqp.trans hp'⟩) hp

/-- What all assignments of a run keep, every call of the run finds. -/
theorem Reaches.keeps {p : Call φ} (h : Reaches env source w p) : P p.world.store := by
  obtain ⟨q, hcarried, hqp⟩ := h
  induction hqp with
  | refl =>
    refine hcarried.keeps (fun n r v hr hv => ?_) hw
    have hreaches : Reaches env source w ⟨r, v⟩ := ⟨⟨r, v⟩, hr, .refl⟩
    exact hreaches.keeps_dispatch hstandard hall hv n
  | @tail b c hqb hbc ih =>
    exact hbc.keeps hstandard (fun p' hp' => hall p' ⟨q, hcarried, hqb.trans hp'⟩) ih

/-- What all assignments of a run keep holds at every moment of it. -/
theorem Moment.keeps {v : World φ} (h : Moment env source w v) : P v.store := by
  cases h with
  | start => exact hw
  | before hp => exact hp.keeps hstandard hall hw
  | after levels hp => exact hp.keeps_dispatch hstandard hall (hp.keeps hstandard hall hw) levels
  | finish levels =>
    refine keeps_runBlocks (fun r v hr hv => ?_) hw
    have hreaches : Reaches env source w ⟨r, v⟩ := ⟨⟨r, v⟩, hr, .refl⟩
    exact hreaches.keeps_dispatch hstandard hall hv levels

end Runs

end DeckScript
