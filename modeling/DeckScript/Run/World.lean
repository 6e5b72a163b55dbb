import DeckScript.Files
import DeckScript.Markup.Element
import DeckScript.Random.Stream
import DeckScript.Report
import DeckScript.Run.Output
import DeckScript.Runner
import DeckScript.Store

/-!
# The state of a run

A run reads and changes one state: the variables, the random stream, the report, the files, the
output, the files that are being included, and a journal of what it asked of its surroundings.

A step of a run ends in one of three ways: it is finished, the output refused a write, or the steps
were nested deeper than the run allows. What a line asks for may also turn out to be faulty before
anything is done. Then the fault goes into the report with the number of the line, and the step is
finished.

## Main definitions

* `Event` — an entry of the journal
* `World` — the state of a run
* `World.enter`, `World.leave` — the list of included files at the two ends of a file
* `Outcome` — how a step ended, with the state after it
* `Outcome.andThen` — a step after a finished one
* `Attempt` — an outcome, or a fault that was found instead
* `Attempt.settle` — the outcome of an attempt, with its fault in the report
-/

namespace DeckScript

/-- What a run told or asked its surroundings. -/
inductive Event where
  /-- A line is about to be carried out. -/
  | traced (line : Nat) (tokens : List String)
  /-- A file is opened for reading. -/
  | opened (name : String)
  /-- A file is replaced, unless the files refuse it. -/
  | saved (name contents : String)
  /-- A program is run. -/
  | called (command : List String)
  deriving DecidableEq, Repr

/-- The command of an event that runs one. -/
def Event.command? : Event → Option (List String)
  | called command => some command
  | _ => none

/-- The state of a run. -/
structure World (φ : Type) where
  store : Store
  random : RandomStream
  report : Report
  files : φ
  output : Output
  /-- The files that are being included, the innermost first. -/
  includes : List String
  /-- The events so far, the latest first. -/
  journal : List Event

/-- How a step ended, with the state after it. -/
inductive Outcome (φ : Type) where
  | finished (world : World φ)
  /-- The output refused a write. -/
  | refused (world : World φ)
  /-- Steps were nested deeper than the run allows. -/
  | exhausted (world : World φ)

variable {φ : Type}

namespace Outcome

/-- The state after a step, however it ended. -/
def world : Outcome φ → World φ
  | finished w => w
  | refused w => w
  | exhausted w => w

/-- Change the state after a step, however it ended. -/
def map (f : World φ → World φ) : Outcome φ → Outcome φ
  | finished w => finished (f w)
  | refused w => refused (f w)
  | exhausted w => exhausted (f w)

/-- Take a further step after a finished one. -/
@[always_inline, inline]
def andThen (o : Outcome φ) (next : World φ → Outcome φ) : Outcome φ :=
  match o with
  | finished w => next w
  | refused w => refused w
  | exhausted w => exhausted w

@[simp] theorem finished_andThen (w : World φ) (f : World φ → Outcome φ) :
    (finished w).andThen f = f w := rfl

@[simp] theorem refused_andThen (w : World φ) (f : World φ → Outcome φ) :
    (refused w).andThen f = refused w := rfl

@[simp] theorem exhausted_andThen (w : World φ) (f : World φ → Outcome φ) :
    (exhausted w).andThen f = exhausted w := rfl

@[simp] theorem andThen_finished (o : Outcome φ) : o.andThen finished = o := by cases o <;> rfl

theorem andThen_assoc (o : Outcome φ) (f g : World φ → Outcome φ) :
    (o.andThen f).andThen g = o.andThen fun w => (f w).andThen g := by cases o <;> rfl

end Outcome

namespace World

/-- The state with an event in its journal. -/
def note (w : World φ) (e : Event) : World φ := { w with journal := e :: w.journal }

/-- The state with a fault of a line in its report. -/
def blame (w : World φ) (line : Nat) (fault : Fault) : World φ :=
  { w with report := w.report.push ⟨line, w.includes.head?, fault⟩ }

/-- Write bytes to the output. -/
def write (w : World φ) (data : ByteArray) : Outcome φ :=
  match w.output.write data with
  | (output, true) => .finished { w with output }
  | (output, false) => .refused { w with output }

/-- Add elements to the markup. -/
def emit (w : World φ) (elements : List Markup.Element) : Outcome φ :=
  w.write (String.join (elements.map Markup.Element.line)).toUTF8

/-- Open a file for reading. -/
def open? [FileStore φ] (w : World φ) (name : String) : World φ × Except String String :=
  (w.note (.opened name), FileStore.read w.files name)

/-- Replace a file. -/
def save? [FileStore φ] (w : World φ) (name contents : String) : World φ × Except String φ :=
  (w.note (.saved name contents), FileStore.write w.files name contents)

/-- The commands that have been run so far, the latest first. -/
def calls (w : World φ) : List (List String) := w.journal.filterMap Event.command?

theorem calls_note_called (w : World φ) (command : List String) :
    (w.note (.called command)).calls = command :: w.calls := rfl

/-- Run a command. -/
def call? [FileStore φ] (w : World φ) (runner : Runner) (command : List String) :
    World φ × Except String ByteArray :=
  (w.note (.called command), runner.answer (FileStore.read w.files) w.calls command)

/-- The state inside a file that is being included. -/
def enter (w : World φ) (name : String) : World φ := { w with includes := name :: w.includes }

/-- The state behind the innermost file that is being included. -/
def leave (w : World φ) : World φ := { w with includes := w.includes.tail }

end World

/-- An attempt to carry out a line: it has a fault of its own, or an outcome. -/
inductive Attempt (φ : Type) where
  | fault (fault : Fault) (world : World φ)
  | outcome (outcome : Outcome φ)

namespace Attempt

/-- An attempt that only changes the state. -/
abbrev done (w : World φ) : Attempt φ := outcome (.finished w)

/-- The outcome of the attempt to carry out a line; a fault goes into the report. -/
def settle (line : Nat) : Attempt φ → Outcome φ
  -- A fault is noted and forgotten: the next line is carried out as if nothing had happened.
  | fault f w => .finished (w.blame line f)
  | outcome o => o

@[simp] theorem settle_fault (line : Nat) (f : Fault) (w : World φ) :
    (fault f w).settle line = .finished (w.blame line f) := rfl

@[simp] theorem settle_outcome (line : Nat) (o : Outcome φ) : (outcome o).settle line = o := rfl

end Attempt

end DeckScript
