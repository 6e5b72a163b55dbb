import DeckScript.Tool.Arguments
import DeckScript.Tool.Input
import DeckScript.Tool.Process
import DeckScript.Vocabulary

/-!
# The command-line tool

The tool compiles one script. It reads the script from a file or its standard input, writes the
markup to a file or its standard output, and reports on its standard error. The exit status tells
what went wrong first.

| Status | Meaning |
|--------|---------|
| 0 | the report is empty |
| 1 | the script cannot be opened |
| 2 | the file for the markup cannot be created |
| 3 | the report is not empty |
| 4 | reading the script or writing the markup failed |
| 64 | the arguments or the environment cannot be understood |

What surrounds the tool is left open: how the command line is read, what programs there are, where
the script breaks off and how much markup is taken.

## Main definitions

* `Tool.Sink` — what stands behind the buffer of an output
* `Tool.Host`, `Tool.Completion` — what surrounds a run of the tool, and how the run ended
* `Tool.Host.runWithin` — one run of the tool
-/

namespace DeckScript.Tool

/-! ## Outputs -/

/-- What stands behind the buffer of an output. -/
inductive Sink where
  /-- It keeps everything. -/
  | endless
  /-- It keeps so many bytes and refuses the next one. The refusal is noticed when the buffer is
  emptied, after so many bytes have been taken or, if there are no more, at the end. -/
  | limited (kept taken : Nat) (reason : String) (h : kept ≤ taken)

namespace Sink

/-- The output with such a sink behind its buffer. -/
def output : Sink → Output
  | endless => .unlimited
  | limited kept taken reason _ => ⟨.empty, some taken, some kept, reason⟩

/-- How many bytes a buffer holds. -/
def bufferSize : Nat := 8192

/-- A device that is always full: a buffer can be filled, but not emptied. -/
def full : Sink := limited 0 bufferSize Disk.Refusal.noSpace.message (Nat.zero_le _)

end Sink

/-- Where the markup goes. -/
inductive Destination where
  | standardOutput
  /-- A place on the disk, with what stands there. -/
  | place (key : String) (node : Disk.Node)

/-- What a destination prints and what the disk holds once the markup is delivered. -/
def Destination.deliver (disk : Disk) (markup : ByteArray) : Destination → ByteArray × Disk
  | standardOutput => (markup, disk)
  | place key _ => (.empty, disk.overwrite key markup)

/-! ## Messages -/

/-- The name that stands in front of every message. -/
def name : String := "decksh"

/-- A message of the tool. -/
def say (text : String) : String := name ++ ": " ++ text

/-- The trace of a run: a line for each record that was carried out. -/
def traceLines (journal : List Event) : List String :=
  journal.reverse.filterMap fun
    | .traced line tokens =>
      some (say ("trace: line " ++ toString line ++ ": " ++ " ".intercalate tokens))
    | _ => none

/-- The lines for a report: each diagnostic, and their number with the last one again. -/
def reportLines (report : Report) : List String :=
  report.toList.map (fun d => say d.text) ++
    (report.last?.map fun d =>
      say (toString report.size ++ " error(s); last: " ++ d.text)).toList

/-- The last line for a verdict. -/
def verdictLines : Verdict → List String
  | .completed => []
  | .failed failure => [say failure.message]
  | .exhausted => [say "lines are nested too deeply"]

/-- The exit status for a verdict. -/
def statusOf (report : Report) : Verdict → Nat
  | .completed => if report.isEmpty then 0 else 3
  | .failed _ => 4
  | .exhausted => 4

/-- The files that a run read or wrote. -/
def namedFiles (journal : List Event) : List String :=
  journal.filterMap fun
    | .opened file | .saved file _ => some file
    | _ => none

/-! ## Runs -/

/-- What surrounds a run of the tool. -/
structure Host where
  /-- Reads the command line, without the name of the program. -/
  parse : List String → Except Arguments.Notice Arguments
  /-- What starting programs does. -/
  machine : Machine
  arguments : List String
  environment : Table String
  disk : Disk
  standardInput : Origin
  /-- The position at which reading the script fails, and why; none if it does not. -/
  breaks : Option (Nat × String)
  standardOutput : Sink
  /-- The room on the disk for the markup. -/
  space : Sink
  /-- The seed that is used if none is set. -/
  entropy : UInt64

/-- How a run of the tool ended. -/
structure Completion where
  status : Nat
  printed : ByteArray
  /-- The lines on the standard error. -/
  messages : List String
  disk : Disk
  /-- The files that the script read or wrote, the latest first. -/
  named : List String

/-- What stays the same during a compilation with given settings and programs. -/
def environmentWith (programs : Runner) (settings : Settings) : Environment :=
  ⟨Vocabulary.standard, settings.includeLimit, settings.trace, programs⟩

/-- The state in which a compilation starts. -/
def worldOf {φ : Type} (seed : UInt64) (files : φ) (output : Output) : World φ :=
  { store := .empty, random := .ofSeed seed, report := .empty, files, output, includes := [],
    journal := [] }

namespace Host

/-- The programs that there are. -/
def programs (host : Host) : Runner := host.machine.runner

/-- What stands behind the buffer for a destination. -/
def sink (host : Host) : Destination → Sink
  | .standardOutput => host.standardOutput
  | .place _ .full => .full
  | .place _ .sink => .endless
  | .place _ _ => host.space

/-- The script, if it can be opened. -/
def openSource (host : Host) : Option String → Except String Reader
  | none => .ok (.start host.standardInput host.breaks)
  | some path =>
    match host.disk.placeForReading path with
    | .ok key => .ok (.start (.place key) host.breaks)
    | .error refusal => .error (say (path ++ ": " ++ refusal.message))

/-- Where the markup goes, and the disk once the file for it is created. -/
def openDestination (host : Host) : Option String → Except String (Disk × Destination)
  | none => .ok (host.disk, .standardOutput)
  | some path =>
    match host.disk.create path with
    | .ok (disk, key, node) => .ok (disk, .place key node)
    | .error refusal => .error (say (path ++ ": " ++ refusal.message))

/-- The compilation of a script with a seed, on a disk and into an output. -/
def compilation (host : Host) (levels readings : Nat) (settings : Settings) (reader : Reader)
    (seed : UInt64) (disk : Disk) (output : Output) : Verdict × World Disk :=
  compileReading (environmentWith host.programs settings) levels Reader.next readings reader
    (worldOf seed disk output)

/-- Compile a script into a destination. -/
def compileInto (host : Host) (levels readings : Nat) (settings : Settings) (reader : Reader)
    (destination : Destination) (disk : Disk) : Completion :=
  let (verdict, w) := host.compilation levels readings settings reader
    (settings.seed.getD host.entropy) disk (host.sink destination).output
  -- What is still in the buffer is delivered however the compilation ended.
  let (printed, disk) := destination.deliver w.files w.output.delivered
  ⟨statusOf w.report verdict, printed,
    traceLines w.journal ++ reportLines w.report ++ verdictLines verdict, disk,
    namedFiles w.journal⟩

/-- A run that ends with a message before anything is done. -/
def refuse (host : Host) (status : Nat) (message : String) : Completion :=
  ⟨status, .empty, [message], host.disk, []⟩

/-- A run with understood arguments and settings. -/
def runWith (host : Host) (levels readings : Nat) (arguments : Arguments) (settings : Settings) :
    Completion :=
  match host.openSource arguments.input with
  | .error message => host.refuse 1 message
  | .ok reader =>
    match host.openDestination arguments.output with
    | .error message => host.refuse 2 message
    | .ok (disk, destination) => host.compileInto levels readings settings reader destination disk

/-- One run of the tool, with so many levels of nested records and at most so many readings of the
script. -/
def runWithin (host : Host) (levels readings : Nat) : Completion :=
  match host.parse host.arguments with
  | .error ⟨text, true⟩ => host.refuse 64 text
  | .error ⟨text, false⟩ => ⟨0, text.toUTF8, [], host.disk, []⟩
  | .ok arguments =>
    -- The environment has to be good even where the arguments override it.
    match Settings.ofEnvironment host.environment with
    | .error refusal => host.refuse 64 (say refusal.message)
    | .ok settings => host.runWith levels readings arguments (arguments.apply settings)

end Host

end DeckScript.Tool
