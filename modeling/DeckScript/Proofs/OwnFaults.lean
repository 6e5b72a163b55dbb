import DeckScript.Proofs.Sequence

/-!
# Faulty lines change nothing

A line may be faulty itself, or a line that is nested in it may be. A fault of its own is found
before anything is done: before an element is written, a number is drawn, a variable is assigned or
a nested line is carried out. All that has happened by then is that files were opened and a
program was run. So the line leaves the state as it was, but for the fault in the report.

## Main definitions

* `World.OnlyAsked` — the same state, with further events in the journal
* `Attempt.FaultsFirst` — a fault is found before anything is changed or carried out
* `Nested` — the outcome of lines that a record nests

## Main results

* `faultsFirst_execute` — the faults of a record itself are found first
* `report_of_execute`, `nested_of_runLoop` — all other faults are those of nested lines
* `atomic_of_fault` — a faulty line changes nothing, and an assignment changes one variable
-/

namespace DeckScript

variable {φ : Type}

/-- The state is the same but for further events in the journal. -/
def World.OnlyAsked (w v : World φ) : Prop :=
  ∃ events, v = { w with journal := events ++ w.journal }

theorem World.OnlyAsked.refl (w : World φ) : w.OnlyAsked w := ⟨[], rfl⟩

theorem World.OnlyAsked.note (w : World φ) (e : Event) : w.OnlyAsked (w.note e) := ⟨[e], rfl⟩

theorem World.OnlyAsked.trans {u v w : World φ} (h : u.OnlyAsked v) (h' : v.OnlyAsked w) :
    u.OnlyAsked w := by
  obtain ⟨events, rfl⟩ := h
  obtain ⟨events', rfl⟩ := h'
  exact ⟨events' ++ events, by rw [List.append_assoc]⟩

theorem World.onlyAsked_announce (env : Environment) (r : Record) (w : World φ) :
    w.OnlyAsked (announce env r w) := by
  rw [announce]
  split
  · exact .note w _
  · exact .refl w

namespace Attempt

/-- If the attempt `a` finds a fault, nothing has changed by then, and `b` finds the same. -/
def FaultsFirst (w : World φ) (a b : Attempt φ) : Prop :=
  ∀ f v, a = .fault f v → w.OnlyAsked v ∧ b = .fault f v

variable {w : World φ}

theorem faultsFirst_outcome (o : Outcome φ) (b : Attempt φ) : FaultsFirst w (.outcome o) b := by
  intro f v h
  cases h

theorem faultsFirst_fault {v : World φ} (h : w.OnlyAsked v) (f : Fault) :
    FaultsFirst w (.fault f v) (.fault f v) := by
  intro g u hfault
  cases hfault
  exact ⟨h, rfl⟩

/-- What a line leaves behind that has a fault of its own. -/
theorem FaultsFirst.settle {a b : Attempt φ} (h : FaultsFirst w a b) {f : Fault} {v : World φ}
    (hfault : a = .fault f v) (line : Nat) :
    ∃ events, a.settle line =
      .finished { w.blame line f with journal := events ++ w.journal } := by
  obtain ⟨⟨events, rfl⟩, -⟩ := h f v hfault
  exact ⟨events, by rw [hfault]; rfl⟩

end Attempt

open Attempt

variable [FileStore φ] (exec exec' : Record → Step φ)

/-! ## Blocks -/

theorem World.onlyAsked_loopRecords (header : SourceLine) (body : List SourceLine) (w : World φ) :
    w.OnlyAsked (loopRecords header body w).1 := by
  rcases loopRecords_fst header body w with h | ⟨name, h⟩
  · rw [h]
    exact .refl w
  · rw [h]
    exact .note w _

theorem faultsFirst_runLoop (header : SourceLine) (body : List SourceLine) (w : World φ) :
    FaultsFirst w (runLoop exec header body w) (runLoop exec' header body w) := by
  have hrecords := w.onlyAsked_loopRecords header body
  revert hrecords
  rw [runLoop_eq, runLoop_eq]
  generalize loopRecords header body w = found
  rcases found with ⟨u, fault | records⟩
  · intro h
    exact faultsFirst_fault h fault
  · intro _
    exact faultsFirst_outcome _ _

theorem faultsFirst_runData (header : SourceLine) (rows : List SourceLine) (w : World φ) :
    FaultsFirst w (runData header rows w) (runData header rows w) := by
  rw [runData]
  cases Data.target (header.record w.store) with
  | error fault => exact faultsFirst_fault (.refl w) fault
  | ok name =>
    dsimp only [World.save?]
    cases FileStore.write w.files name (Data.contents rows) with
    | error reason => exact faultsFirst_fault (.note w _) _
    | ok files => exact faultsFirst_outcome _ _

/-! ## Records -/

theorem faultsFirst_runInclude (env : Environment) (name : String) (w : World φ) :
    FaultsFirst w (runInclude env exec name w) (runInclude env exec' name w) := by
  rw [runInclude, runInclude]
  split
  -- At the limit the file is not even opened.
  · exact faultsFirst_fault (.refl w) _
  · rw [World.open?]
    cases FileStore.read w.files name with
    | error reason => exact faultsFirst_fault (.note w _) _
    -- Whatever the lines of the file come to, it is not the fault of the line that includes it.
    | ok contents => exact faultsFirst_outcome _ _

theorem faultsFirst_fulfil (env : Environment) (line : Nat) (request : Request) (w : World φ) :
    FaultsFirst w (fulfil env exec line request w) (fulfil env exec' line request w) := by
  cases request with
  | emit elements => exact faultsFirst_outcome _ _
  | enter file => exact faultsFirst_runInclude exec exec' env file w
  | fillGrid file layout =>
    rw [fulfil, fulfil, World.open?]
    cases FileStore.read w.files file with
    | error reason => exact faultsFirst_fault (.note w _) _
    | ok contents => exact faultsFirst_outcome _ _
  | chart command =>
    rw [fulfil, fulfil]
    rcases runChart_cases env command w with ⟨reason, h⟩ | ⟨printed, h⟩ <;> rw [h]
    · exact faultsFirst_fault (.note w _) _
    · exact faultsFirst_outcome _ _
  | set name value => exact faultsFirst_outcome _ _
  | run text => exact faultsFirst_outcome _ _

omit [FileStore φ] in
theorem faultsFirst_runAssignment (r : Record) (w : World φ) :
    FaultsFirst w (runAssignment r w) (runAssignment r w) := by
  rw [runAssignment]
  split
  · cases assign w.store w.random r with
    | error fault => exact faultsFirst_fault (.refl w) fault
    | ok after => exact faultsFirst_outcome _ _
  · split
    · cases assignCompound w.store r with
      | error fault => exact faultsFirst_fault (.refl w) fault
      | ok store => exact faultsFirst_outcome _ _
    · exact faultsFirst_outcome _ _

/-- A record's own fault is found before anything is changed, and before any nested record is
carried out: it is the same however those are carried out. -/
theorem faultsFirst_execute (env : Environment) (r : Record) (w : World φ) :
    FaultsFirst w (execute env exec r w) (execute env exec' r w) := by
  rw [execute, execute]
  split
  · exact faultsFirst_runAssignment r w
  · split
    · exact faultsFirst_fault (.refl w) _
    · exact faultsFirst_fulfil exec exec' env r.line _ w

theorem faultsFirst_dispatch (env : Environment) (r : Record) (w : World φ) :
    FaultsFirst w (execute env exec r (announce env r w))
      (execute env exec' r (announce env r w)) := by
  intro f v hfault
  obtain ⟨hasked, hsame⟩ := faultsFirst_execute exec exec' env r (announce env r w) f v hfault
  exact ⟨(w.onlyAsked_announce env r).trans hasked, hsame⟩

/-! ## Assignments -/

omit [FileStore φ] in
/-- An assignment that has no fault changes one variable, and may draw a number. -/
theorem runAssignment_eq (r : Record) (w : World φ) :
    (∃ f, runAssignment r w = .fault f w) ∨
      ∃ store random, (∀ key, key ≠ r.keyword → store.get? key = w.store.get? key) ∧
        runAssignment r w = .done { w with store, random } := by
  rw [runAssignment]
  split
  -- Both forms put their value under the first token, once the value is known.
  · rw [assign]
    cases assignedValue w.store w.random r with
    | error fault => exact .inl ⟨fault, rfl⟩
    | ok after =>
      exact .inr ⟨_, _, fun key hkey => Table.get?_insert_of_ne w.store after.1 hkey, rfl⟩
  · split
    · rw [assignCompound]
      cases compoundValue w.store r with
      | error fault => exact .inl ⟨fault, rfl⟩
      | ok value =>
        exact .inr ⟨_, _, fun key hkey => Table.get?_insert_of_ne w.store value hkey, rfl⟩
    · exact .inr ⟨_, _, fun key _ => rfl, rfl⟩

/-! ## Faults of nested lines -/

/-- The outcome is that of lines which the line `line` nests: the body of a loop, the blocks of a
text, those of a file that is left after them, or the cells of a grid. -/
inductive Nested (exec : Record → Step φ) (line : Nat) (w : World φ) : Outcome φ → Prop
  | body (rs : List Record) {u : World φ} : u.report = w.report →
    Nested exec line w (runRecords exec rs u)
  | text (bs : List Block) : Nested exec line w (runBlocks exec bs w)
  | file (bs : List Block) {u : World φ} : u.report = w.report →
    Nested exec line w ((runBlocks exec bs u).map World.leave)
  | grid (layout : Grid.Layout) (c : Grid.Cursor) (texts : List String) {u : World φ} :
    u.report = w.report → Nested exec line w (runGrid exec line layout c texts u)

omit [FileStore φ] in
theorem World.report_write (w : World φ) (data : ByteArray) :
    (w.write data).world.report = w.report := by
  rw [World.write]
  split <;> rfl

/-- A record without a fault of its own adds nothing to the report itself: what is added comes from
the lines that it nests. -/
theorem report_of_execute {env : Environment} {r : Record} {w : World φ} {o : Outcome φ}
    (h : execute env exec r w = .outcome o) :
    o.world.report = w.report ∨ Nested exec r.line w o := by
  rw [execute] at h
  split at h
  · rcases runAssignment_eq r w with ⟨f, hfault⟩ | ⟨store, random, -, hdone⟩
    · rw [hfault] at h
      cases h
    · rw [hdone] at h
      cases h
      exact .inl rfl
  · split at h
    · cases h
    · rename_i request _
      cases request with
      | emit elements =>
        cases h
        exact .inl (w.report_write _)
      | enter file =>
        rw [fulfil, runInclude, World.open?] at h
        split at h
        · cases h
        · cases hread : FileStore.read w.files file with
          | error reason =>
            rw [hread] at h
            cases h
          | ok contents =>
            rw [hread] at h
            cases h
            exact .inr (.file _ rfl)
      | fillGrid file layout =>
        rw [fulfil, World.open?] at h
        cases hread : FileStore.read w.files file with
        | error reason =>
          rw [hread] at h
          cases h
        | ok contents =>
          rw [hread] at h
          cases h
          exact .inr (.grid layout _ _ rfl)
      | chart command =>
        rw [fulfil] at h
        rcases runChart_cases env command w with ⟨reason, hchart⟩ | ⟨printed, hchart⟩ <;>
          rw [hchart] at h <;> cases h
        exact .inl (World.report_write _ _)
      | set name value =>
        cases h
        exact .inl rfl
      | run text =>
        cases h
        exact .inr (.text _)

theorem nested_of_runLoop {header : SourceLine} {body : List SourceLine} {w : World φ}
    {o : Outcome φ} (h : runLoop exec header body w = .outcome o) :
    Nested exec header.number w o := by
  have hasked := w.onlyAsked_loopRecords header body
  rw [runLoop_eq] at h
  revert h hasked
  generalize loopRecords header body w = found
  rcases found with ⟨u, fault | records⟩
  · intro h _
    cases h
  · rintro h ⟨events, rfl⟩
    cases h
    exact .body records rfl

theorem report_of_runData {header : SourceLine} {rows : List SourceLine} {w : World φ}
    {o : Outcome φ} (h : runData header rows w = .outcome o) : o.world.report = w.report := by
  rw [runData] at h
  split at h
  · cases h
  · dsimp only [World.save?] at h
    split at h
    · cases h
    · rename_i heq
      obtain ⟨rfl, -⟩ := Prod.mk.inj heq
      cases h
      rfl

/-! ## Atomicity -/

/-- A record, a loop or a data block with a fault of its own changes nothing but the report and
the journal, and the fault is found before any nested record is carried out. Without one, it adds
nothing to the report but the faults of nested lines. A record whose keyword is not in the
vocabulary has a fault of its own, or it changes no variable but its first token, and writes
nothing to the output and the files. -/
theorem atomic_of_fault (env : Environment) (levels : Nat) (w : World φ) :
    (∀ r f v, execute env (dispatch env levels) r (announce env r w) = .fault f v →
      (∃ events, dispatch env (levels + 1) r w =
        .finished { w.blame r.line f with journal := events ++ w.journal }) ∧
      ∀ exec, execute env exec r (announce env r w) = .fault f v) ∧
    (∀ r o, execute env (dispatch env levels) r (announce env r w) = .outcome o →
      o.world.report = w.report ∨ Nested (dispatch env levels) r.line (announce env r w) o) ∧
    (∀ header body f v, runLoop (dispatch env levels) header body w = .fault f v →
      (∃ events, runBlock (dispatch env levels) (.loop header body) w =
        .finished { w.blame header.number f with journal := events ++ w.journal }) ∧
      ∀ exec, runLoop exec header body w = .fault f v) ∧
    (∀ header body o, runLoop (dispatch env levels) header body w = .outcome o →
      Nested (dispatch env levels) header.number w o) ∧
    (∀ header rows f v, runData header rows w = .fault f v →
      ∃ events, runBlock (dispatch env levels) (.data header rows) w =
        .finished { w.blame header.number f with journal := events ++ w.journal }) ∧
    (∀ header rows o, runData header rows w = .outcome o → o.world.report = w.report) ∧
    ∀ r, env.vocabulary.get? r.keyword = none →
      (∃ f, execute env (dispatch env levels) r (announce env r w) =
        .fault f (announce env r w)) ∨
      ∃ store random events, (∀ key, key ≠ r.keyword → store.get? key = w.store.get? key) ∧
        dispatch env (levels + 1) r w =
          .finished { w with store, random, journal := events ++ w.journal } := by
  refine ⟨?_, ?_, ?_, ?_, ?_, ?_, ?_⟩
  · intro r f v h
    have hfirst := faultsFirst_dispatch (dispatch env levels) (dispatch env levels) env r w
    refine ⟨hfirst.settle h r.line, ?_⟩
    intro exec
    exact (faultsFirst_dispatch _ exec env r w f v h).2
  · intro r o h
    have hreport : (announce env r w).report = w.report := by
      obtain ⟨events, hannounce⟩ := w.onlyAsked_announce env r
      rw [hannounce]
    rw [← hreport]
    exact report_of_execute _ h
  · intro header body f v h
    have hfirst := faultsFirst_runLoop (dispatch env levels) (dispatch env levels) header body w
    refine ⟨hfirst.settle h header.number, ?_⟩
    intro exec
    exact (faultsFirst_runLoop _ exec header body w f v h).2
  · intro header body o h
    exact nested_of_runLoop _ h
  · intro header rows f v h
    exact (faultsFirst_runData header rows w).settle h header.number
  · intro header rows o h
    exact report_of_runData h
  · intro r hkeyword
    obtain ⟨events, hannounce⟩ := w.onlyAsked_announce env r
    rw [dispatch_succ, execute, hkeyword, hannounce]
    rcases runAssignment_eq r { w with journal := events ++ w.journal } with
      ⟨f, hfault⟩ | ⟨store, random, helse, hdone⟩
    · exact .inl ⟨f, hfault⟩
    · exact .inr ⟨store, random, events, helse, by rw [hdone]; rfl⟩

end DeckScript
