import DeckScript.Tool.Session

/-!
# The program

The tool runs on a disk in memory. Before it runs, the files that the arguments name are read, and
after it has run, the files that its script named: if one of them was not in memory yet, it is read
and the run is repeated. In the end the files that the run changed are written.

## Main definitions

* `main` — the program
-/

namespace DeckScript.Tool

/-- What stands under a path on the real disk. -/
def loadNode (path : String) : IO (Option Disk.Node) := do
  if path = "/dev/null" then return some .sink
  if path = "/dev/full" then return some .full
  try
    return some (.file (← IO.FS.readBinFile path))
  catch _ =>
    try
      let _ ← IO.FS.realPath path
      let handle? ← (some <$> IO.FS.Handle.mk path .read) <|> pure none
      return handle?.map fun _ => .directory
    catch _ => return none

/-- The disk with what stands under a path, if anything does. -/
def load (disk : Disk) (path : String) : IO Disk := do
  match ← loadNode path with
  | some node => return disk.place path node
  | none =>
    match (Disk.names path).reverse with
    | [] | [_] => return disk
    | _ :: above =>
      let directory := Disk.key (Disk.isAbsolute path) above
      match ← loadNode (directory ++ "/.") with
      | some .directory => return disk.place directory .directory
      | _ => return disk

/-- Run the tool, and again with the files that its script named, until all of them are in memory.
`n` bounds the repetitions. -/
def settle : Nat → Invocation → List String → IO Completion
  | 0, i, _ => return run i
  | n + 1, i, known => do
    let done := run i
    -- The run depends on the disk alone, so it is the same again up to the first new file.
    match done.named.filter fun file => !known.contains file with
    | [] => return done
    | files =>
      let files := files.eraseDups
      let disk ← files.foldlM load i.disk
      settle n { i with disk } (files ++ known)

/-- The contents of a file on a disk. -/
def fileBytes? (disk : Disk) (key : String) : Option ByteArray :=
  match disk.nodes.get? key with
  | some (.file contents) => some contents
  | _ => none

/-- Write the files that differ from what was loaded. -/
def store (before after : Disk) : IO Unit := do
  for key in after.nodes.keys do
    match fileBytes? before key, fileBytes? after key with
    | some old, some new => if old.data ≠ new.data then IO.FS.writeBinFile key new
    | none, some new => IO.FS.writeBinFile key new
    | _, none => pure ()

/-- Everything that can be read from a stream. -/
def readAll (stream : IO.FS.Stream) : Nat → ByteArray → IO ByteArray
  | 0, bytes => return bytes
  | n + 1, bytes => do
    let more ← stream.read 65536
    if more.isEmpty then return bytes else readAll stream n (bytes ++ more)

/-- The variables of the environment that the tool looks at. -/
def environment : IO (Table String) :=
  [Settings.seedVariable, Settings.traceVariable].foldlM (fun t variableName => do
    match ← IO.getEnv variableName with
    | some value => return t.insert variableName value
    | none => return t) Table.empty

end DeckScript.Tool

open DeckScript DeckScript.Tool in
/-- Run the tool on the real disk and end with its status. -/
def main (arguments : List String) : IO UInt32 := do
  let environment ← environment
  let named :=
    match Arguments.parse arguments with
    | .ok a => a.input.toList ++ a.output.toList
    | .error _ => []
  let readsInput :=
    match Arguments.parse arguments with
    | .ok a => a.input.isNone
    | .error _ => false
  let input ←
    if readsInput then readAll (← IO.getStdin) 0x100000000 .empty else pure ByteArray.empty
  let before ← named.foldlM load Disk.empty
  let entropy := (← IO.getRandomBytes 8).toUInt64LE!
  let done ← settle 0x10000 ⟨arguments, environment, input.toList, before, entropy⟩ named
  store before done.disk
  (← IO.getStdout).write done.printed
  for message in done.messages do
    IO.eprintln message
  return UInt32.ofNat done.status
