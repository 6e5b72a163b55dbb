import DeckScript.Runner
import DeckScript.Text.Line
import DeckScript.Text.Utf8
import DeckScript.Text.WhiteSpace

/-!
# Running programs

The tool starts the program that a command names with the other words of the command as its
arguments, and waits for its end. What it printed counts if it succeeded. Otherwise its status is
told, and the first line of what it complained about.

Which programs there are and what they do is left open.

## Main definitions

* `Exit` — how a program ended
* `Machine` — what starting programs does
* `runProgram` — running a command
* `Machine.runner` — the programs of a machine as a compilation sees them
-/

namespace DeckScript

/-- How a program ended that could be started. -/
structure Exit where
  succeeded : Bool
  /-- The wording of its status. -/
  status : String
  printed : ByteArray
  complaint : List UInt8

/-- What starting programs does. -/
structure Machine where
  /-- How a program with a name and arguments ends, or the reason why it cannot be started, given
  how files read at the moment and the commands that were run before, the latest first. -/
  start : (String → Except String String) → List (List String) → String → List String →
    Except String Exit

/-- A text without the white space at its ends, from the first line of what a program complained
about. -/
def complaintText (complaint : List UInt8) : String :=
  Text.trim ((Text.lines (Text.Utf8.decode complaint)).headD "")

/-- Why a program failed. -/
def Exit.reason (done : Exit) : String :=
  let detail := complaintText done.complaint
  if detail.isEmpty then done.status else done.status ++ " (" ++ detail ++ ")"

/-- Run a command: what it prints, or the reason why it failed. -/
def runProgram (start : String → List String → Except String Exit) (command : List String) :
    Except String ByteArray :=
  match command with
  | [] => .error "empty command"
  | program :: args =>
    match start program args with
    | .error reason => .error (program ++ " - " ++ reason)
    | .ok done => if done.succeeded then .ok done.printed else .error done.reason

/-- The programs of a machine as a compilation sees them. -/
def Machine.runner (machine : Machine) : Runner :=
  ⟨fun read calls command => runProgram (machine.start read calls) command⟩

end DeckScript
