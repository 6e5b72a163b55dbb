import DeckScript.Proofs.Sequence
import DeckScript.Proofs.Standard
import DeckScript.Run.Compile

/-!
# What a run keeps

A run only adds to its output, its report and its journal, and goes on in the random stream. When
it is over the list of included files is what it was. The files are changed by what the journal
notes as saved and by nothing else, so the journal tells what became of them.

## Main definitions

* `Event.redo`, `replay` — what an event, and a journal, does to the files
* `World.Precedes` — one state comes before another in a run
* `Advances` — a step that only goes on from a state

## Main results

* `advances_dispatch` — carrying out a record only goes on
* `precedes_run` — and so does running a script
-/

namespace DeckScript

variable {φ : Type} [FileStore φ]

/-- The files after an event: a file that is saved is replaced if the files allow it. -/
def Event.redo (e : Event) (files : φ) : φ :=
  match e with
  | .saved name contents =>
    match FileStore.write files name contents with
    | .ok files => files
    | .error _ => files
  | _ => files

/-- The files after the events of a journal, the latest first. -/
def replay (events : List Event) (files : φ) : φ := events.foldr Event.redo files

@[simp] theorem replay_nil (files : φ) : replay [] files = files := rfl

@[simp] theorem replay_cons (e : Event) (events : List Event) (files : φ) :
    replay (e :: events) files = e.redo (replay events files) := rfl

theorem replay_append (es ds : List Event) (files : φ) :
    replay (es ++ ds) files = replay es (replay ds files) := List.foldr_append

/-- The state `v` comes after the state `w` in a run, with the same files being included. -/
structure World.Precedes (w v : World φ) : Prop where
  includes : v.includes = w.includes
  bytes : ∃ data, v.output.bytes = w.output.bytes ++ data
  reach : v.output.reach = w.output.reach
  report : w.report.toList <+: v.report.toList
  random : w.random.position ≤ v.random.position
  journal : ∃ events, v.journal = events ++ w.journal ∧ v.files = replay events w.files

namespace World.Precedes

theorem refl (w : World φ) : w.Precedes w where
  includes := rfl
  bytes := ⟨.empty, by simp⟩
  reach := rfl
  report := List.prefix_rfl
  random := Nat.le_refl _
  journal := ⟨[], rfl, rfl⟩

theorem trans {u v w : World φ} (h : u.Precedes v) (h' : v.Precedes w) : u.Precedes w where
  includes := h'.includes.trans h.includes
  bytes := by
    obtain ⟨d, hd⟩ := h.bytes
    obtain ⟨d', hd'⟩ := h'.bytes
    exact ⟨d ++ d', by rw [hd', hd, ByteArray.append_assoc]⟩
  reach := h'.reach.trans h.reach
  report := h.report.trans h'.report
  random := Nat.le_trans h.random h'.random
  journal := by
    obtain ⟨es, hes, hfiles⟩ := h.journal
    obtain ⟨es', hes', hfiles'⟩ := h'.journal
    refine ⟨es' ++ es, ?_, ?_⟩
    · rw [hes', hes, List.append_assoc]
    · rw [hfiles', hfiles, replay_append]

/-- Noting an event that leaves the files alone. -/
theorem note (w : World φ) {e : Event} (he : e.redo w.files = w.files) :
    w.Precedes (w.note e) where
  includes := rfl
  bytes := ⟨.empty, by simp [World.note]⟩
  reach := rfl
  report := List.prefix_rfl
  random := Nat.le_refl _
  journal := ⟨[e], rfl, he.symm⟩

theorem blame (w : World φ) (line : Nat) (fault : Fault) : w.Precedes (w.blame line fault) where
  includes := rfl
  bytes := ⟨.empty, by simp [World.blame]⟩
  reach := rfl
  report := by simp [World.blame]
  random := Nat.le_refl _
  journal := ⟨[], rfl, rfl⟩

theorem assign (w : World φ) (store : Store) {random : RandomStream}
    (h : w.random.position ≤ random.position) : w.Precedes { w with store, random } where
  includes := rfl
  bytes := ⟨.empty, by simp⟩
  reach := rfl
  report := List.prefix_rfl
  random := h
  journal := ⟨[], rfl, rfl⟩

end World.Precedes

/-! ## Output, files and random numbers -/

theorem Output.exists_bytes_write (o : Output) (data : ByteArray) :
    ∃ taken, (o.write data).1.bytes = o.bytes ++ taken := by
  rw [Output.write]
  split
  · exact ⟨data, rfl⟩
  · split
    · exact ⟨data, rfl⟩
    · exact ⟨_, rfl⟩

theorem Output.reach_write (o : Output) (data : ByteArray) :
    (o.write data).1.reach = o.reach := by
  rw [Output.write]
  split
  · rfl
  · split <;> rfl

theorem World.precedes_write (w : World φ) (data : ByteArray) :
    w.Precedes (w.write data).world := by
  have hout : (w.write data).world = { w with output := (w.output.write data).1 } := by
    rw [World.write]
    rcases w.output.write data with ⟨output, _ | _⟩ <;> rfl
  rw [hout]
  exact ⟨rfl, w.output.exists_bytes_write data, w.output.reach_write data, List.prefix_rfl,
    Nat.le_refl _, [], rfl, rfl⟩

theorem World.precedes_open (w : World φ) (name : String) : w.Precedes (w.open? name).1 :=
  .note w rfl

/-- A write that is refused leaves the files alone. -/
theorem World.precedes_save_error (w : World φ) {name contents reason : String}
    (h : FileStore.write w.files name contents = .error reason) :
    w.Precedes (w.note (.saved name contents)) :=
  .note w (by simp only [Event.redo, h])

theorem World.precedes_save_ok (w : World φ) {name contents : String} {files : φ}
    (h : FileStore.write w.files name contents = .ok files) :
    w.Precedes { w.note (.saved name contents) with files } where
  includes := rfl
  bytes := ⟨.empty, by simp [World.note]⟩
  reach := rfl
  report := List.prefix_rfl
  random := Nat.le_refl _
  journal := ⟨[.saved name contents], rfl, by simp only [replay_cons, replay_nil, Event.redo, h]⟩

/-- A file that is included leaves the list of included files as it was. -/
theorem World.Precedes.leave {w v : World φ} {name : String} (h : (w.enter name).Precedes v) :
    w.Precedes v.leave where
  includes := by rw [World.leave, h.includes]; rfl
  bytes := h.bytes
  reach := h.reach
  report := h.report
  random := h.random
  journal := h.journal

omit [FileStore φ] in
/-- An assignment never goes back in the random stream. -/
theorem position_le_of_assign {store : Store} {random : RandomStream} {r : Record}
    {after : Store × RandomStream} (h : DeckScript.assign store random r = .ok after) :
    random.position ≤ after.2.position := by
  obtain ⟨p, hp, rfl⟩ := exists_of_map_eq_ok h
  rw [assignedValue] at hp
  split at hp
  · cases hp
    exact Nat.le_refl _
  · split at hp
    · obtain ⟨low, -, hp⟩ := exists_of_bind_eq_ok hp
      obtain ⟨high, -, hp⟩ := exists_of_bind_eq_ok hp
      cases hp
      exact Nat.le_succ _
    · obtain ⟨value, -, rfl⟩ := exists_of_map_eq_ok hp
      exact Nat.le_refl _
  · obtain ⟨value, -, rfl⟩ := exists_of_map_eq_ok hp
    exact Nat.le_refl _
  · obtain ⟨value, -, rfl⟩ := exists_of_map_eq_ok hp
    exact Nat.le_refl _
  · cases hp

theorem precedes_loopRecords (header : SourceLine) (body : List SourceLine) (w : World φ) :
    w.Precedes (loopRecords header body w).1 := by
  rcases loopRecords_fst header body w with h | ⟨name, h⟩
  · rw [h]
    exact .refl w
  · rw [h]
    exact w.precedes_open name

/-! ## Steps -/

omit [FileStore φ] in
theorem Outcome.world_map (f : World φ → World φ) (o : Outcome φ) :
    (o.map f).world = f o.world := by cases o <;> rfl

/-- A step that only goes on from the state in which it is taken. -/
def Advances (f : Step φ) : Prop := ∀ w : World φ, w.Precedes (f w).world

theorem Outcome.precedes_andThen {w : World φ} {o : Outcome φ} {f : Step φ}
    (ho : w.Precedes o.world) (hf : Advances f) : w.Precedes (o.andThen f).world := by
  cases o with
  | finished u => exact ho.trans (hf u)
  | refused u => exact ho
  | exhausted u => exact ho

theorem advances_runSteps {ss : List (Step φ)} (h : ∀ s ∈ ss, Advances s) :
    Advances (runSteps ss) := by
  induction ss with
  | nil => exact World.Precedes.refl
  | cons s rest ih =>
    intro w
    have hrest : Advances (runSteps rest) := ih fun t ht => h t (List.mem_cons_of_mem s ht)
    exact Outcome.precedes_andThen (h s List.mem_cons_self w) hrest

theorem advances_runSteps_map {α : Type _} {step : α → Step φ} (h : ∀ a, Advances (step a))
    (items : List α) : Advances (runSteps (items.map step)) := by
  apply advances_runSteps
  intro s hs
  obtain ⟨a, -, rfl⟩ := List.mem_map.1 hs
  exact h a

/-- The state in which an attempt ends, before a fault goes into the report. -/
def Attempt.state : Attempt φ → World φ
  | fault _ w => w
  | outcome o => o.world

theorem Attempt.precedes_settle {w : World φ} {a : Attempt φ} (h : w.Precedes a.state)
    (line : Nat) : w.Precedes (a.settle line).world := by
  cases a with
  | fault f u => exact h.trans (.blame u line f)
  | outcome o => exact h

section Runs

variable {exec : Record → Step φ} (hexec : ∀ r, Advances (exec r))
include hexec

theorem advances_runRecords (rs : List Record) : Advances (runRecords exec rs) := by
  intro w
  rw [runRecords_eq_runSteps]
  exact advances_runSteps_map hexec rs w

theorem precedes_runLoop (header : SourceLine) (body : List SourceLine) (w : World φ) :
    w.Precedes (runLoop exec header body w).state := by
  have hrecords := precedes_loopRecords header body w
  revert hrecords
  rw [runLoop_eq]
  generalize loopRecords header body w = found
  rcases found with ⟨u, fault | records⟩
  · exact id
  · intro h
    exact h.trans (advances_runRecords hexec records u)

omit hexec in
theorem precedes_runData (header : SourceLine) (rows : List SourceLine) (w : World φ) :
    w.Precedes (runData header rows w).state := by
  rw [runData]
  split
  · exact .refl w
  · dsimp only [World.save?]
    split
    · rename_i heq
      obtain ⟨rfl, hwrite⟩ := Prod.mk.inj heq
      exact w.precedes_save_error hwrite
    · rename_i heq
      obtain ⟨rfl, hwrite⟩ := Prod.mk.inj heq
      exact w.precedes_save_ok hwrite

theorem advances_runBlock (b : Block) : Advances (runBlock exec b) := by
  intro w
  cases b with
  | directive l => exact hexec (l.record w.store) w
  | loop header body => exact Attempt.precedes_settle (precedes_runLoop hexec header body w) _
  | data header rows => exact Attempt.precedes_settle (precedes_runData header rows w) _

theorem advances_runBlocks (bs : List Block) : Advances (runBlocks exec bs) := by
  intro w
  rw [runBlocks_eq_runSteps]
  exact advances_runSteps_map (advances_runBlock hexec) bs w

theorem advances_runCell (line : Nat) (place : Grid.Cursor × String) :
    Advances (runCell exec line place) := by
  intro w
  rw [runCell]
  split
  · exact hexec _ w
  · exact .refl w

theorem advances_runGrid (line : Nat) (layout : Grid.Layout) (c : Grid.Cursor)
    (texts : List String) : Advances (runGrid exec line layout c texts) := by
  intro w
  rw [runGrid_eq_runSteps]
  exact advances_runSteps_map (advances_runCell hexec line) _ w

theorem advances_runText (text : String) : Advances (runText exec text : Step φ) :=
  advances_runBlocks hexec _

theorem precedes_runInclude (env : Environment) (name : String) (w : World φ) :
    w.Precedes (runInclude env exec name w).state := by
  rw [runInclude]
  split
  · exact .refl w
  · rw [World.open?]
    cases FileStore.read w.files name with
    | error reason => exact w.precedes_open name
    | ok contents =>
      have hinside := advances_runText hexec contents ((w.note (.opened name)).enter name)
      have hleave := (w.precedes_open name).trans hinside.leave
      dsimp only [Attempt.state]
      cases h : runText exec contents ((w.note (.opened name)).enter name) <;>
        (rw [h] at hleave; exact hleave)

omit hexec in
/-- Who runs a program goes on behind the call. -/
theorem precedes_runChart (env : Environment) (command : List String) (w : World φ) :
    (w.note (.called command)).Precedes (runChart env command w).state := by
  rcases runChart_cases env command w with ⟨reason, h⟩ | ⟨printed, h⟩ <;> rw [h]
  · exact .refl _
  · exact World.precedes_write _ _

theorem precedes_fulfil (env : Environment) (line : Nat) (request : Request) (w : World φ) :
    w.Precedes (fulfil env exec line request w).state := by
  cases request with
  | emit elements => exact w.precedes_write _
  | enter file => exact precedes_runInclude hexec env file w
  | fillGrid file layout =>
    rw [fulfil, World.open?]
    cases FileStore.read w.files file with
    | error reason => exact w.precedes_open file
    | ok contents =>
      exact (w.precedes_open file).trans (advances_runGrid hexec line layout _ _ _)
  | chart command =>
    have hcalled : w.Precedes (w.note (.called command)) := .note w rfl
    exact hcalled.trans (precedes_runChart env command w)
  | set name value => exact .assign w _ (Nat.le_refl _)
  | run text => exact advances_runText hexec text w

omit hexec in
theorem precedes_runAssignment (r : Record) (w : World φ) :
    w.Precedes (runAssignment r w).state := by
  rw [runAssignment]
  split
  · split
    · exact .refl w
    · rename_i hassign
      exact .assign w _ (position_le_of_assign hassign)
  · split
    · split
      · exact .refl w
      · exact .assign w _ (Nat.le_refl _)
    · exact .refl w

theorem precedes_execute (env : Environment) (r : Record) (w : World φ) :
    w.Precedes (execute env exec r w).state := by
  rw [execute]
  split
  · exact precedes_runAssignment r w
  · split
    · exact .refl w
    · exact precedes_fulfil hexec env r.line _ w

end Runs

theorem World.precedes_announce (env : Environment) (r : Record) (w : World φ) :
    w.Precedes (announce env r w) := by
  rw [announce]
  split
  · exact .note w rfl
  · exact .refl w

/-- Carrying out a record only goes on from the state in which it begins. -/
theorem advances_dispatch (env : Environment) (n : Nat) (r : Record) :
    Advances (dispatch env n r : Step φ) := by
  -- One level more carries out one record more around those that already go on.
  induction n generalizing r with
  | zero => exact World.Precedes.refl
  | succ n ih =>
    intro w
    have hexecute := precedes_execute ih env r (announce env r w)
    exact Attempt.precedes_settle ((w.precedes_announce env r).trans hexecute) r.line

/-- Running a script only goes on from the state at its start. -/
theorem precedes_run (env : Environment) (levels : Nat) (source : Source) (w : World φ) :
    w.renew.Precedes (run env levels source w).world :=
  advances_runBlocks (advances_dispatch env levels) source.blocks w.renew

end DeckScript
