import DeckScript.Run.Dispatch

/-!
# Compiling

Compiling a script turns it into markup and a report. The variables and the random stream go on
from one script to the next; the report and the list of included files start anew.

## Main definitions

* `Failure` — why a run was cut short
* `Verdict` — how a compilation ended
* `compile` — compiling a script
-/

namespace DeckScript

/-- Why a run was cut short. -/
inductive Failure where
  | read (reason : String)
  | write (reason : String)
  deriving DecidableEq, Repr

/-- The wording of a failure. -/
def Failure.message : Failure → String
  | read reason => "read error: " ++ reason
  | write reason => "write error: " ++ reason

/-- How a compilation ended. -/
inductive Verdict where
  | completed
  | failed (failure : Failure)
  /-- Records were nested deeper than the run allows. -/
  | exhausted
  deriving DecidableEq, Repr

variable {φ : Type}

/-- The state at the start of a compilation. -/
def World.renew (w : World φ) : World φ := { w with report := .empty, includes := [] }

/-- How a compilation ended that ran the blocks of a script. -/
def Outcome.verdict (source : Source) : Outcome φ → Verdict
  | .finished w =>
    -- A broken-off script is never flushed.
    match source.failure with
    | some reason => .failed (.read reason)
    | none =>
      match w.output.flush with
      | some reason => .failed (.write reason)
      | none => .completed
  | .refused w => .failed (.write w.output.refusal)
  | .exhausted _ => .exhausted

/-- Run the blocks of a script with so many levels of nested records. -/
def run [FileStore φ] (env : Environment) (levels : Nat) (source : Source) (w : World φ) :
    Outcome φ :=
  runBlocks (dispatch env levels) source.blocks w.renew

/-- Compile a script: how the compilation ended, and the state after it. -/
def compile [FileStore φ] (env : Environment) (levels : Nat) (source : Source) (w : World φ) :
    Verdict × World φ :=
  let outcome := run env levels source w
  (outcome.verdict source, outcome.world)

end DeckScript
