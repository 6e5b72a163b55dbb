import DeckScript.Run.Compile

/-!
# Scripts that are read while they run

A script may come from a place that changes while it runs, and then it is not known beforehand: it
is read line by line, and each block is carried out as soon as it is complete. So what a block does
may decide what is read next.

Where the lines come from is open. A reader gives what comes next in a state of reading, with the
files as they are at that moment. A reader may go on for ever, so the number of readings is bounded.

## Main definitions

* `ReadStep` — what comes next of a script
* `Outcome.conclude` — going on after a finished step, up to the end of a compilation
* `runReading`, `compileReading` — compiling a script while it is read
-/

namespace DeckScript

/-- What comes next of a script, and how to read on. -/
inductive ReadStep (ρ : Type) where
  /-- A line, without its break. -/
  | line (bytes : List UInt8) (rest : ρ)
  /-- There is nothing more. There may be if it is tried again. -/
  | ended (rest : ρ)
  /-- Reading failed. -/
  | broken (reason : String)

variable {φ ρ : Type}

/-- How a compilation ends that has read its script to the end. -/
def World.complete (w : World φ) : Verdict × World φ :=
  match w.output.flush with
  | some reason => (.failed (.write reason), w)
  | none => (.completed, w)

/-- Go on after a finished step; the compilation ends with any other one. -/
@[always_inline, inline]
def Outcome.conclude (o : Outcome φ) (next : World φ → Verdict × World φ) : Verdict × World φ :=
  match o with
  | .finished w => next w
  | .refused w => (.failed (.write w.output.refusal), w)
  | .exhausted w => (.exhausted, w)

/-- Read a script and carry out its blocks, with at most so many readings: from a line number, an
open block and a state of reading on. -/
def runReading [FileStore φ] (exec : Record → World φ → Outcome φ) (next : φ → ρ → ReadStep ρ) :
    Nat → Nat → Option OpenBlock → ρ → World φ → Verdict × World φ
  | 0, _, _, _, w => (.exhausted, w)
  | n + 1, number, opened, r, w =>
    match next w.files r with
    | .broken reason => (.failed (.read reason), w)
    | .ended rest =>
      match opened with
      | none => w.complete
      -- Behind a block that the end has closed it is tried once more to read on.
      | some block =>
        (runBlock exec block.close w).conclude (runReading exec next n number none rest)
    | .line bytes rest =>
      match Block.step opened ⟨number, Text.Utf8.decode bytes⟩ with
      | (opened, none) => runReading exec next n (number + 1) opened rest w
      | (opened, some block) =>
        (runBlock exec block w).conclude (runReading exec next n (number + 1) opened rest)

/-- Compile a script while it is read, with so many levels of nested records and at most so many
readings. -/
def compileReading [FileStore φ] (env : Environment) (levels : Nat) (next : φ → ρ → ReadStep ρ)
    (readings : Nat) (r : ρ) (w : World φ) : Verdict × World φ :=
  runReading (dispatch env levels) next readings 1 none r w.renew

end DeckScript
