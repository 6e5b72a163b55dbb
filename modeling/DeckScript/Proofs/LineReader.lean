import DeckScript.Proofs.Composition
import DeckScript.Proofs.LoopVariable

/-!
# Reading a script line by line

A script is cut into blocks before the first of them is run. It may as well be read line by line
while it is run: each line is scanned with the variables that are assigned at that moment, its
record decides what the line is for, and a block is carried out as soon as it is complete. Both ways
lead to the same outcome, because nothing that the reader looks at is ever replaced by the value of
a variable. So what the lines of a script are for, and how many tokens each of them has, is the same
in all runs that reach its end.

## Main definitions

* `Role`, `Reading` — what a line is for, and a line that has been read
* `Task`, `OpenTask` — blocks, and blocks that are not complete, with records in place of lines
* `readLine`, `readLines`, `Source.read` — reading one line, the lines of a script, and a script
* `Reading.shape` — what the reader makes of a line
* `Source.outline` — what the reader makes of the lines of a script when nothing is assigned

## Main results

* `Source.read_snd` — reading line by line leads to the same outcome as running the blocks
* `Source.shape_read` — all that is read of a script is a first part of its outline
* `shape_read_eq` — two runs that reach the end of a script make the same of each of its lines
-/

namespace DeckScript

/-! ## Readings -/

/-- What a line is for. -/
inductive Role where
  | skipped
  | directive
  | loopHeader
  | loopLine
  | loopEnd
  | dataHeader
  | row
  | dataEnd
  deriving DecidableEq, Repr

/-- A line that has been read: what it is for, and its record if it was scanned. Comment lines and
the rows of a data block are not scanned. -/
structure Reading where
  line : SourceLine
  role : Role
  record : Option Record
  deriving DecidableEq, Repr

/-- What the reader makes of a line: what it is for, and the first token and the number of tokens if
it is scanned. -/
structure Shape where
  line : SourceLine
  role : Role
  scanned : Option (String × Nat)
  deriving DecidableEq, Repr

/-- What the reader made of a line. -/
def Reading.shape (r : Reading) : Shape :=
  ⟨r.line, r.role, r.record.map fun record => (record.keyword, record.length)⟩

/-! ## Tasks -/

/-- A part of a script that is carried out as one, with the records of its lines. -/
inductive Task where
  | directive (record : Record)
  | loop (header : Record) (body : List Record)
  | data (header : Record) (rows : List SourceLine)

/-- A loop or a data block with the lines it has so far, the last one first. -/
inductive OpenTask where
  | loop (header : Record) (body : List Record)
  | data (header : Record) (rows : List SourceLine)

/-- The task that an open one becomes when it ends. -/
def OpenTask.close : OpenTask → Task
  | loop header body => .loop header body.reverse
  | data header rows => .data header rows.reverse

/-- The task of a block whose lines are scanned with the variables of a store. -/
def Block.task (store : Store) : Block → Task
  | directive l => .directive (l.record store)
  | loop header body => .loop (header.record store) (body.map fun l => l.record store)
  | data header rows => .data (header.record store) rows

/-- The task of a block that is open. -/
def OpenBlock.task (store : Store) : OpenBlock → OpenTask
  | loop header body => .loop (header.record store) (body.map fun l => l.record store)
  | data header rows => .data (header.record store) rows

theorem OpenBlock.close_task (store : Store) (b : OpenBlock) :
    (b.task store).close = b.close.task store := by
  cases b with
  | loop header body =>
    rw [task, OpenTask.close, close, Block.task, List.map_reverse]
  | data header rows => rfl

section Tasks

variable {φ : Type} [FileStore φ]

/-- Carry out a task. -/
def runTask (exec : Record → Step φ) : Task → Step φ
  | .directive record, w => exec record w
  | .loop header body, w =>
    Attempt.settle header.line <|
      match Loop.Header.ofRecord header with
      | .error fault => .fault fault w
      | .ok loop =>
        runSource (fun value => runRecords exec (body.map fun r => r.bind loop.placeholder value))
          loop.source w
  | .data header rows, w =>
    Attempt.settle header.line <|
      match Data.target header with
      | .error fault => .fault fault w
      | .ok name =>
        match w.save? name (Data.contents rows) with
        | (w, .error reason) => .fault (.file name reason) w
        | (w, .ok files) => .done { w with files }

/-- Running a block is scanning its lines and carrying out the task that this makes. -/
theorem runBlock_eq_runTask (exec : Record → Step φ) (b : Block) (w : World φ) :
    runBlock exec b w = runTask exec (b.task w.store) w := by
  cases b with
  | directive l => rfl
  | loop header body => rfl
  | data header rows => rfl

end Tasks

/-! ## The reader -/

/-- Read one line with the variables of a store: what is read, the task that is open behind the
line, and the task that the line completes. -/
def readLine (store : Store) :
    Option OpenTask → SourceLine → Reading × Option OpenTask × Option Task
  | none, l =>
    if l.text.toList.head? = some '#' then (⟨l, .skipped, none⟩, none, none)
    else
      let r := l.record store
      if r.isEmpty then (⟨l, .skipped, some r⟩, none, none)
      else if r.keyword = "for" then (⟨l, .loopHeader, some r⟩, some (.loop r []), none)
      else if r.keyword = "data" then (⟨l, .dataHeader, some r⟩, some (.data r []), none)
      else (⟨l, .directive, some r⟩, none, some (.directive r))
  | some (.loop header body), l =>
    if l.text.toList.head? = some '#' then
      (⟨l, .skipped, none⟩, some (.loop header body), none)
    else
      let r := l.record store
      if r.isEmpty then (⟨l, .skipped, some r⟩, some (.loop header body), none)
      else if r.keyword = "efor" then
        (⟨l, .loopEnd, some r⟩, none, some (OpenTask.loop header body).close)
      else (⟨l, .loopLine, some r⟩, some (.loop header (r :: body)), none)
  | some (.data header rows), l =>
    if Text.trim l.text = "edata" then
      (⟨l, .dataEnd, none⟩, none, some (OpenTask.data header rows).close)
    else (⟨l, .row, none⟩, some (.data header (l :: rows)), none)

/-- Read lines and carry out each task as soon as it is complete: what is read up to the line at
which the run stops, and the outcome. A task that is open when the lines end is complete then,
unless they break off. -/
def readLines {φ : Type} [FileStore φ] (exec : Record → Step φ) (failure : Option String) :
    Option OpenTask → List SourceLine → World φ → List Reading × Outcome φ
  | state, [], w =>
    match failure, state with
    | none, some task => ([], runTask exec task.close w)
    | _, _ => ([], .finished w)
  | state, l :: rest, w =>
    match readLine w.store state l with
    | (reading, next, done) =>
      match runSteps (done.toList.map (runTask exec)) w with
      | .finished u =>
        let (readings, outcome) := readLines exec failure next rest u
        (reading :: readings, outcome)
      | outcome => ([reading], outcome)

/-- Read a script. -/
def Source.read {φ : Type} [FileStore φ] (exec : Record → Step φ) (source : Source) (w : World φ) :
    List Reading × Outcome φ :=
  readLines exec source.failure none source.lines w

/-- What the reader makes of lines when nothing is assigned. -/
def outlineOf : Option OpenBlock → List SourceLine → List Shape
  | _, [] => []
  | state, l :: rest =>
    (readLine .empty (state.map (OpenBlock.task .empty)) l).1.shape ::
      outlineOf (Block.step state l).1 rest

/-- What the reader makes of the lines of a script when nothing is assigned. -/
def Source.outline (source : Source) : List Shape := outlineOf none source.lines

/-! ## Nothing that the reader looks at is replaced -/

namespace SourceLine

variable (l : SourceLine) (store : Store)

theorem keyword_record_eq : (l.record store).keyword = (tokenize l.text).headD "" := by
  rw [record, Record.ofLine, Record.keyword, Record.arg]
  cases tokenize l.text with
  | nil => rfl
  | cons first others => rfl

theorem isEmpty_record : (l.record store).isEmpty = (tokenize l.text).isEmpty := by
  rw [record, Record.ofLine, Record.isEmpty]
  cases tokenize l.text with
  | nil => rfl
  | cons first others => rfl

theorem length_record : (l.record store).length = (tokenize l.text).length := by
  rw [record, Record.ofLine, Record.length, length_resolveArgs]

/-- The keyword of a line as the reader finds it in the record. -/
theorem keyword?_eq_of_record :
    l.keyword? =
      if l.text.toList.head? = some '#' ∨ (l.record store).isEmpty then none
      else some (l.record store).keyword := by
  rw [isEmpty_record, keyword_record_eq, keyword?]
  by_cases hcomment : l.text.toList.head? = some '#'
  · rw [if_pos hcomment, if_pos (.inl hcomment)]
  · rw [if_neg hcomment]
    cases tokenize l.text with
    | nil => simp
    | cons first others => simp [hcomment]

end SourceLine

/-- The variables have no part in what a line is for, in its first token and in the number of its
tokens. -/
theorem shape_readLine (store store' : Store) (state : Option OpenBlock) (l : SourceLine) :
    (readLine store (state.map (OpenBlock.task store)) l).1.shape =
      (readLine store' (state.map (OpenBlock.task store')) l).1.shape := by
  rcases state with - | ⟨header, body⟩ | ⟨header, rows⟩
  · simp only [Option.map_none, readLine, l.isEmpty_record, l.keyword_record_eq]
    split_ifs <;>
      simp only [Reading.shape, Option.map_some, l.keyword_record_eq, l.length_record]
  · simp only [Option.map_some, OpenBlock.task, readLine, l.isEmpty_record, l.keyword_record_eq]
    split_ifs <;>
      simp only [Reading.shape, Option.map_some, l.keyword_record_eq, l.length_record]
  · simp only [Option.map_some, OpenBlock.task, readLine]
    split_ifs <;> rfl

theorem line_readLine (store : Store) (state : Option OpenTask) (l : SourceLine) :
    (readLine store state l).1.line = l := by
  rcases state with - | ⟨header, body⟩ | ⟨header, rows⟩
  all_goals
    simp only [readLine]
    split_ifs <;> rfl

/-- A line opens and completes the same blocks with whatever variables it is scanned. -/
theorem readLine_snd (store : Store) (state : Option OpenBlock) (l : SourceLine) :
    (readLine store (state.map (OpenBlock.task store)) l).2 =
      ((Block.step state l).1.map (OpenBlock.task store),
        (Block.step state l).2.map (Block.task store)) := by
  have hkeyword := l.keyword?_eq_of_record store
  rcases state with - | ⟨header, body⟩ | ⟨header, rows⟩
  · rw [Option.map_none, readLine, Block.step]
    by_cases hcomment : l.text.toList.head? = some '#'
    · rw [if_pos (.inl hcomment)] at hkeyword
      rw [hkeyword, if_pos hcomment]
      rfl
    by_cases hempty : (l.record store).isEmpty
    · rw [if_pos (.inr hempty)] at hkeyword
      simp only [hkeyword, if_neg hcomment, if_pos hempty, Option.map_none]
    · rw [if_neg (not_or.2 ⟨hcomment, hempty⟩)] at hkeyword
      simp only [hkeyword, if_neg hcomment, if_neg hempty]
      split_ifs <;> rfl
  · rw [Option.map_some, OpenBlock.task, readLine, Block.step]
    by_cases hcomment : l.text.toList.head? = some '#'
    · rw [if_pos (.inl hcomment)] at hkeyword
      rw [hkeyword, if_pos hcomment]
      rfl
    by_cases hempty : (l.record store).isEmpty
    · rw [if_pos (.inr hempty)] at hkeyword
      simp only [hkeyword, if_neg hcomment, if_pos hempty, Option.map_none, Option.map_some,
        OpenBlock.task]
    · rw [if_neg (not_or.2 ⟨hcomment, hempty⟩)] at hkeyword
      simp only [hkeyword, if_neg hcomment, if_neg hempty]
      split_ifs
      · rw [Option.map_none, Option.map_some, ← OpenBlock.close_task, OpenBlock.task]
      · rfl
  · rw [Option.map_some, OpenBlock.task, readLine, Block.step]
    split_ifs <;> rfl

/-- No block is open behind the line that completes one. -/
theorem Block.step_fst_eq_none {state : Option OpenBlock} {l : SourceLine}
    (h : (step state l).2 ≠ none) : (step state l).1 = none := by
  revert h
  rcases state with - | ⟨header, body⟩ | ⟨header, rows⟩
  · rw [step]
    split
    · exact fun h => absurd rfl h
    · split_ifs
      · exact fun h => absurd rfl h
      · exact fun h => absurd rfl h
      · exact fun _ => rfl
  · rw [step]
    split
    · exact fun h => absurd rfl h
    · split_ifs
      · exact fun _ => rfl
      · exact fun h => absurd rfl h
  · rw [step]
    split_ifs
    · exact fun _ => rfl
    · exact fun h => absurd rfl h

/-! ## Reading and running -/

variable {φ : Type} [FileStore φ] {exec : Record → Step φ} {failure : Option String}

/-- The blocks of lines in which a block is open from the start. -/
def blocksFrom (failure : Option String) (state : Option OpenBlock) (ls : List SourceLine) :
    List Block :=
  (Block.split state ls).1 ++
    match failure with
    | none => ((Block.split state ls).2.map OpenBlock.close).toList
    | some _ => []

theorem blocksFrom_cons (state : Option OpenBlock) (l : SourceLine) (rest : List SourceLine) :
    blocksFrom failure state (l :: rest) =
      (Block.step state l).2.toList ++ blocksFrom failure (Block.step state l).1 rest := by
  simp only [blocksFrom, Block.split, List.append_assoc]

/-- What lines are when they are read from a state: the blocks that they complete are run, and what
is read is a first part of the outline. It is all of it if the run does not stop before. -/
structure ReadAs (exec : Record → Step φ) (failure : Option String) (state : Option OpenBlock)
    (ls : List SourceLine) (w : World φ) (r : List Reading × Outcome φ) : Prop where
  outcome : r.2 = runBlocks exec (blocksFrom failure state ls) w
  isFirst : r.1.map Reading.shape <+: outlineOf state ls
  all : ∀ u, r.2 = .finished u → r.1.map Reading.shape = outlineOf state ls

theorem readAs_nil (state : Option OpenBlock) (w : World φ) :
    ReadAs exec failure state [] w
      (readLines exec failure (state.map (OpenBlock.task w.store)) [] w) := by
  cases failure with
  | some reason => exact ⟨rfl, List.nil_prefix, fun _ _ => rfl⟩
  | none =>
    cases state with
    | none => exact ⟨rfl, List.nil_prefix, fun _ _ => rfl⟩
    | some b =>
      refine ⟨?_, List.nil_prefix, fun _ _ => rfl⟩
      have hblocks : blocksFrom none (some b) [] = [b.close] := rfl
      rw [hblocks, runBlocks_eq_runSteps, List.map_singleton, runSteps_cons, runBlock_eq_runTask,
        ← OpenBlock.close_task]
      exact (Outcome.andThen_finished _).symm

/-- Reading a line puts it in front of what is read behind it, if the run does not stop at it. -/
theorem readAs_readLines (state : Option OpenBlock) (ls : List SourceLine) (w : World φ) :
    ReadAs exec failure state ls w
      (readLines exec failure (state.map (OpenBlock.task w.store)) ls w) := by
  induction ls generalizing state w with
  | nil => exact readAs_nil state w
  | cons l rest ih =>
    have hshape := shape_readLine w.store .empty state l
    have hsnd := readLine_snd w.store state l
    have hnone : (Block.step state l).2 ≠ none → (Block.step state l).1 = none :=
      Block.step_fst_eq_none
    rw [readLines]
    revert hshape hsnd
    rcases readLine w.store (state.map (OpenBlock.task w.store)) l with ⟨reading, tasks⟩
    rintro hshape rfl
    dsimp only at hshape ⊢
    have houtline : outlineOf state (l :: rest) =
        reading.shape :: outlineOf (Block.step state l).1 rest := by
      rw [outlineOf, hshape]
    cases hdone : (Block.step state l).2 with
    | none =>
      have hrest := ih (Block.step state l).1 w
      simp only [Option.map_none, Option.toList_none, List.map_nil, runSteps_nil]
      refine ⟨?_, ?_, fun u hu => ?_⟩
      · rw [blocksFrom_cons, hdone]
        exact hrest.outcome
      · rw [houtline]
        exact List.prefix_cons_inj reading.shape |>.2 hrest.isFirst
      · rw [houtline]
        exact congrArg (reading.shape :: ·) (hrest.all u hu)
    | some b =>
      have hrun : runSteps (((some b).map (Block.task w.store)).toList.map (runTask exec)) w =
          runBlock exec b w := by
        rw [runBlock_eq_runTask]
        exact Outcome.andThen_finished _
      -- No block is open behind the completed one, so what follows is read afresh.
      rw [hnone (by simp [hdone])] at houtline ⊢
      have hblocks : runBlocks exec (blocksFrom failure state (l :: rest)) w =
          (runBlock exec b w).andThen (runBlocks exec (blocksFrom failure none rest)) := by
        rw [blocksFrom_cons, hdone, hnone (by simp [hdone])]
        rfl
      rw [hrun]
      cases hb : runBlock exec b w with
      | finished u =>
        rw [hb, Outcome.finished_andThen] at hblocks
        have hrest := ih none u
        refine ⟨hblocks ▸ hrest.outcome, ?_, fun v hv => ?_⟩
        · rw [houtline]
          exact List.prefix_cons_inj reading.shape |>.2 hrest.isFirst
        · rw [houtline]
          exact congrArg (reading.shape :: ·) (hrest.all v hv)
      | refused u =>
        rw [hb] at hblocks
        exact ⟨hblocks.symm, houtline ▸ List.prefix_append [reading.shape] _,
          fun v hv => nomatch hv⟩
      | exhausted u =>
        rw [hb] at hblocks
        exact ⟨hblocks.symm, houtline ▸ List.prefix_append [reading.shape] _,
          fun v hv => nomatch hv⟩

/-! ## Scripts -/

namespace Source

variable (exec) in
/-- Reading a script line by line leads to the same outcome as running its blocks. -/
theorem read_snd (source : Source) (w : World φ) :
    (source.read exec w).2 = runBlocks exec source.blocks w := by
  have h : ReadAs exec source.failure none source.lines w (source.read exec w) :=
    readAs_readLines none source.lines w
  rw [blocks_eq_blocksOf]
  exact h.outcome

variable (exec) in
/-- What is read of a script in any run is a first part of its outline. -/
theorem shape_read_prefix (source : Source) (w : World φ) :
    (source.read exec w).1.map Reading.shape <+: source.outline :=
  (readAs_readLines none source.lines w).isFirst

theorem shape_read {source : Source} {w u : World φ}
    (h : runBlocks exec source.blocks w = .finished u) :
    (source.read exec w).1.map Reading.shape = source.outline :=
  (readAs_readLines none source.lines w).all u (source.read_snd exec w ▸ h)

end Source

theorem line_outlineOf (state : Option OpenBlock) (ls : List SourceLine) :
    (outlineOf state ls).map Shape.line = ls := by
  induction ls generalizing state with
  | nil => rfl
  | cons l rest ih =>
    rw [outlineOf, List.map_cons, ih]
    exact congrArg (· :: rest) (line_readLine .empty _ l)

/-- Take two runs of a script that reach its end, with whatever variables, vocabularies, files,
random numbers and included files. Read line by line they come to the same ends, and all lines are
read. Each line is for the same thing in both runs, so the same lines are skipped, carried out and
taken up by the same loops and data blocks; and each line that is scanned has the same first token
and the same number of tokens. -/
theorem shape_read_eq {ψ : Type} [FileStore ψ] {env env' : Environment} {n n' : Nat}
    {source : Source} {w u : World φ} {w' u' : World ψ}
    (h : runBlocks (dispatch env n) source.blocks w = .finished u)
    (h' : runBlocks (dispatch env' n') source.blocks w' = .finished u') :
    let r := source.read (dispatch env n) w
    let r' := source.read (dispatch env' n') w'
    r.2 = .finished u ∧ r'.2 = .finished u' ∧ r.1.map Reading.line = source.lines ∧
      r.1.map Reading.shape = r'.1.map Reading.shape := by
  intro r r'
  have hshape : r.1.map Reading.shape = source.outline := Source.shape_read h
  have hshape' : r'.1.map Reading.shape = source.outline := Source.shape_read h'
  refine ⟨?_, ?_, ?_, hshape.trans hshape'.symm⟩
  · rw [← h]
    exact source.read_snd (dispatch env n) w
  · rw [← h']
    exact source.read_snd (dispatch env' n') w'
  · have hline : r.1.map Reading.line = (r.1.map Reading.shape).map Shape.line := by
      rw [List.map_map]
      rfl
    rw [hline, hshape]
    exact line_outlineOf none source.lines

/-- A loop with two malformed lines behind it, read with `efor` for a variable and by a language
without any directive. -/
theorem shape_read_loop :
    let source := Source.ofText "for i = 1 v\ncircle i v 2\n# note\nefor\ncircle v\nv 5 2"
    (source.read (dispatch bareEnvironment 1) (bareWorld (assignedTo "efor"))).1.map
        Reading.shape =
      (source.read (dispatch { bareEnvironment with vocabulary := .empty } 1)
        (bareWorld .empty)).1.map Reading.shape := by
  intro source
  obtain ⟨u, hu, -⟩ := @exists_finished_of_unlimited _ _ bareEnvironment 1 source
    (bareWorld (assignedTo "efor")) (by decide +kernel)
  obtain ⟨u', hu', -⟩ := @exists_finished_of_unlimited _ _
    { bareEnvironment with vocabulary := .empty } 1 source (bareWorld .empty) (by decide +kernel)
  exact (shape_read_eq hu hu').2.2.2

end DeckScript
