import DeckScript.Tool.Host
import DeckScript.Tool.Shell

/-!
# The tool in memory

The tool can be run without a machine around it: on a disk in memory, with the built-in programs and
with streams that do not fail.

## Main definitions

* `Tool.Invocation` — what the tool is started with
* `Tool.run` — one run of the tool
-/

namespace DeckScript.Tool

/-- What the tool is started with. -/
structure Invocation where
  arguments : List String
  environment : Table String
  input : List UInt8
  disk : Disk
  /-- The seed that is used if none is set. -/
  entropy : UInt64

/-- What surrounds the tool in memory. -/
def Invocation.host (i : Invocation) : Host where
  parse arguments := (Arguments.parse arguments).mapError Arguments.Refusal.notice
  machine := ⟨fun _ _ => startBuiltIn⟩
  arguments := i.arguments
  environment := i.environment
  disk := i.disk
  standardInput := .stream i.input
  breaks := none
  standardOutput := .endless
  space := .endless
  entropy := i.entropy

/-- What stays the same during a compilation with given settings and the built-in programs. -/
def environmentOf (settings : Settings) : Environment := environmentWith runCommand settings

/-- How often a script is read on at most: more often than any script in memory has lines. -/
def maxReadings : Nat := UInt64.size

/-- One run of the tool. Neither the arguments nor the environment set how deep files may be
included, so the levels are those of the standard settings. -/
def run (i : Invocation) : Completion := i.host.runWithin Settings.standard.levels maxReadings

end DeckScript.Tool
