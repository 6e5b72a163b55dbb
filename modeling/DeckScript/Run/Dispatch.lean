import DeckScript.Assignment
import DeckScript.Directive.Basic
import DeckScript.Loop
import DeckScript.Run.World
import DeckScript.Script.Data

/-!
# Running a script

A script is run block by block. A block's lines are carried out as records; a record whose keyword
is in the vocabulary is a directive, and any other one an assignment or nothing. A directive may
run further lines: the lines of an included file, of a grid or of a text. Those are carried out by
the same rules one level deeper, so carrying out a record takes the number of levels that are left.

## Main definitions

* `Environment` — what stays the same during a run
* `runRecords`, `runLoop`, `runBlock`, `runBlocks` — running lines, given how to carry out one
* `fulfil`, `execute` — carrying out a request and a record, given how to carry out deeper ones
* `dispatch` — carrying out a record with a number of levels

## Main results

* `dispatch_zero`, `dispatch_succ` — a record takes one level, and what it nests takes the others
-/

namespace DeckScript

/-- What stays the same during a run. -/
structure Environment where
  vocabulary : Vocabulary
  /-- How many files may be included in one another. -/
  includeLimit : Nat
  /-- Records are noted in the journal before they are carried out. -/
  traced : Bool
  runner : Runner

variable {φ : Type}

/-- Carry out records in order. -/
def runRecords (exec : Record → World φ → Outcome φ) : List Record → World φ → Outcome φ
  | [], w => .finished w
  | r :: rest, w => (exec r w).andThen fun w => runRecords exec rest w

/-! ## Loops -/

/-- Repeat a step for each value of a list. -/
def runValues (each : String → World φ → Outcome φ) : List String → World φ → Outcome φ
  | [], w => .finished w
  | value :: rest, w => (each value w).andThen fun w => runValues each rest w

/-- Repeat a step for the values of a range: `n` of them from number `k` on. -/
def runRange (each : String → World φ → Outcome φ) (first step : Float) :
    Nat → Nat → World φ → Outcome φ
  | _, 0, w => .finished w
  | k, n + 1, w =>
    (each (Loop.rangeValue first step k) w).andThen fun w => runRange each first step (k + 1) n w

/-- The values that the lines of a file give: those that are not blank, between double quotes. -/
def fileValues (contents : String) : List String :=
  ((Text.lines contents).filter fun l => !(Text.trim l).isEmpty).map Literal.requote

/-- Repeat a step for each value of a loop. -/
def runSource [FileStore φ] (each : String → World φ → Outcome φ) (source : Loop.Source)
    (w : World φ) : Attempt φ :=
  match source with
  | .range first last step =>
    .outcome (runRange each first step 0 (Loop.floatCount first last step) w)
  | .items tokens => .outcome (runValues each (tokens.map Literal.requote) w)
  | .file name =>
    match w.open? name with
    | (w, .error reason) => .fault (.file name reason) w
    | (w, .ok contents) => .outcome (runValues each (fileValues contents) w)

/-- Run a loop. The tokens of its body are resolved once, before the first repetition. -/
def runLoop [FileStore φ] (exec : Record → World φ → Outcome φ) (header : SourceLine)
    (body : List SourceLine) (w : World φ) : Attempt φ :=
  match Loop.Header.ofRecord (header.record w.store) with
  | .error fault => .fault fault w
  | .ok loop =>
    -- What the repetitions assign does not change the tokens of the body any more.
    let records := body.map fun l => l.record w.store
    runSource (fun value => runRecords exec (records.map fun r => r.bind loop.placeholder value))
      loop.source w

/-! ## Data blocks -/

/-- Write the file of a data block. -/
def runData [FileStore φ] (header : SourceLine) (rows : List SourceLine) (w : World φ) :
    Attempt φ :=
  match Data.target (header.record w.store) with
  | .error fault => .fault fault w
  | .ok name =>
    match w.save? name (Data.contents rows) with
    | (w, .error reason) => .fault (.file name reason) w
    | (w, .ok files) => .done { w with files }

/-! ## Blocks -/

/-- Run a block. -/
def runBlock [FileStore φ] (exec : Record → World φ → Outcome φ) (block : Block) (w : World φ) :
    Outcome φ :=
  match block with
  | .directive l => exec (l.record w.store) w
  | .loop header body => (runLoop exec header body w).settle header.number
  | .data header rows => (runData header rows w).settle header.number

/-- Run blocks in order. -/
def runBlocks [FileStore φ] (exec : Record → World φ → Outcome φ) :
    List Block → World φ → Outcome φ
  | [], w => .finished w
  | b :: rest, w => (runBlock exec b w).andThen fun w => runBlocks exec rest w

/-- Run a text as a script. -/
def runText [FileStore φ] (exec : Record → World φ → Outcome φ) (text : String) (w : World φ) :
    Outcome φ :=
  runBlocks exec (Source.ofText text).blocks w

/-! ## Requests -/

/-- Run the lines of a grid from a place on. Empty lines take up no place; lines with too few
tokens take one up and do nothing. -/
def runGrid (exec : Record → World φ → Outcome φ) (line : Nat) (layout : Grid.Layout) :
    Grid.Cursor → List String → World φ → Outcome φ
  | _, [], w => .finished w
  | c, text :: rest, w =>
    -- The limit is looked at in front of every line, also of one that takes up no place.
    let c := layout.wrap c
    if text.isEmpty then runGrid exec line layout c rest w
    else
      let cell := c.cell w.store line text
      if Grid.leastTokens ≤ cell.length then
        (exec cell w).andThen fun w => runGrid exec line layout (layout.advance c) rest w
      else runGrid exec line layout (layout.advance c) rest w

/-- Run the lines of a file in place of a line. -/
def runInclude [FileStore φ] (env : Environment) (exec : Record → World φ → Outcome φ)
    (name : String) (w : World φ) : Attempt φ :=
  if env.includeLimit ≤ w.includes.length then .fault (.depth name env.includeLimit) w
  else
    match w.open? name with
    | (w, .error reason) => .fault (.file name reason) w
    | (w, .ok contents) =>
      -- The file leaves the list however its lines ended.
      .outcome ((runText exec contents (w.enter name)).map World.leave)

/-- Add what a program prints to the markup. -/
def runChart [FileStore φ] (env : Environment) (command : List String) (w : World φ) :
    Attempt φ :=
  match w.call? env.runner command with
  | (w, .error reason) => .fault (.chart command reason) w
  | (w, .ok printed) => .outcome (w.write (printed ++ "\n".toUTF8))

/-- A program fails, or what it prints goes into the markup. -/
theorem runChart_cases [FileStore φ] (env : Environment) (command : List String) (w : World φ) :
    (∃ reason, runChart env command w =
      .fault (.chart command reason) (w.note (.called command))) ∨
      ∃ printed, runChart env command w =
        .outcome ((w.note (.called command)).write (printed ++ "\n".toUTF8)) := by
  rw [runChart, World.call?]
  cases env.runner.answer (FileStore.read w.files) w.calls command with
  | error reason => exact .inl ⟨reason, rfl⟩
  | ok printed => exact .inr ⟨printed, rfl⟩

/-- Carry out what the directive of a line asks for. -/
def fulfil [FileStore φ] (env : Environment) (exec : Record → World φ → Outcome φ) (line : Nat)
    (request : Request) (w : World φ) : Attempt φ :=
  match request with
  | .emit elements => .outcome (w.emit elements)
  | .enter file => runInclude env exec file w
  | .fillGrid file layout =>
    match w.open? file with
    | (w, .error reason) => .fault (.file file reason) w
    | (w, .ok contents) => .outcome (runGrid exec line layout layout.start (Text.lines contents) w)
  | .chart command => runChart env command w
  | .set name value => .done { w with store := w.store.insert name value }
  | .run text => .outcome (runText exec text w)

/-! ## Records -/

/-- Carry out a record whose keyword is not in the vocabulary. -/
def runAssignment (r : Record) (w : World φ) : Attempt φ :=
  if r.isAssignment then
    match assign w.store w.random r with
    | .error fault => .fault fault w
    | .ok (store, random) => .done { w with store, random }
  else if r.isCompound then
    match assignCompound w.store r with
    | .error fault => .fault fault w
    | .ok store => .done { w with store }
  else .done w

/-- Carry out a record, given how to carry out deeper ones. -/
def execute [FileStore φ] (env : Environment) (exec : Record → World φ → Outcome φ) (r : Record)
    (w : World φ) : Attempt φ :=
  match env.vocabulary.get? r.keyword with
  -- A keyword of the language is never assigned to by a line that begins with it.
  | none => runAssignment r w
  | some directive =>
    match directive.ask w.store r with
    | .error fault => .fault fault w
    | .ok request => fulfil env exec r.line request w

/-- The state before a record is carried out. -/
def announce (env : Environment) (r : Record) (w : World φ) : World φ :=
  if env.traced then w.note (.traced r.line r.tokens) else w

/-- Carry out a record with so many levels of nested records. -/
def dispatch [FileStore φ] (env : Environment) : Nat → Record → World φ → Outcome φ
  | 0, _, w => .exhausted w
  | n + 1, r, w => (execute env (dispatch env n) r (announce env r w)).settle r.line

@[simp] theorem dispatch_zero [FileStore φ] (env : Environment) (r : Record) (w : World φ) :
    dispatch env 0 r w = .exhausted w := rfl

theorem dispatch_succ [FileStore φ] (env : Environment) (n : Nat) (r : Record) (w : World φ) :
    dispatch env (n + 1) r w =
      (execute env (dispatch env n) r (announce env r w)).settle r.line := rfl

end DeckScript
