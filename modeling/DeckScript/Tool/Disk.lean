import DeckScript.Files

/-!
# Disks

A disk holds files and directories under paths. A path is read relative to the working directory
unless it begins with a slash. The two devices are files that keep nothing: one takes everything,
the other takes nothing.

Refusals are worded as the operating system words them.

## Main definitions

* `Disk.Node`, `Disk` — what stands under a path, and a disk
* `Disk.Refusal` — why a path cannot be opened, and the wording
* `Disk.openForReading`, `Disk.create`, `Disk.replace` — opening, creating and replacing files
-/

namespace DeckScript

/-- Why the operating system refuses to open or change a file. -/
inductive Disk.Refusal where
  | notFound | notADirectory | isADirectory | noSpace | nameTooLong | zeroByte | notText
  deriving DecidableEq, Repr

/-- The wording of a refusal. -/
def Disk.Refusal.message : Disk.Refusal → String
  | notFound => "No such file or directory (os error 2)"
  | notADirectory => "Not a directory (os error 20)"
  | isADirectory => "Is a directory (os error 21)"
  | noSpace => "No space left on device (os error 28)"
  | nameTooLong => "File name too long (os error 36)"
  | zeroByte => "file name contained an unexpected NUL byte"
  | notText => "stream did not contain valid UTF-8"

/-- What stands under a path. -/
inductive Disk.Node where
  | file (contents : ByteArray)
  | directory
  /-- A device that takes everything and keeps nothing. -/
  | sink
  /-- A device that is always full. -/
  | full

/-- Files and directories by their paths: the names of a path with single slashes between them, and
a slash in front if the path does not start at the working directory. -/
structure Disk where
  nodes : Table Disk.Node

namespace Disk

/-- The nodes that every disk has. -/
def standardNodes : List (String × Node) :=
  [("", .directory), ("..", .directory), ("/", .directory), ("/tmp", .directory),
   ("/dev", .directory), ("/dev/null", .sink), ("/dev/full", .full)]

/-- A disk with an empty working directory. -/
def empty : Disk := ⟨Table.ofList standardNodes⟩

/-! ## Paths -/

/-- Cut characters at the slashes. -/
def cut : List Char → List (List Char)
  | [] => [[]]
  | c :: rest =>
    let pieces := cut rest
    if c = '/' then [] :: pieces else (c :: pieces.headD []) :: pieces.tail

/-- The texts between the slashes of a path. -/
def pieces (path : String) : List String := (cut path.toList).map String.ofList

/-- The names along a path; an empty name and a single dot lead nowhere. -/
def names (path : String) : List String := (pieces path).filter fun n => n ≠ "" ∧ n ≠ "."

/-- The path begins with a slash. -/
def isAbsolute (path : String) : Bool := path.toList.head? = some '/'

/-- The path ends with a slash or a dot, and so can only be a directory. -/
def namesDirectory (path : String) : Bool :=
  match (pieces path).getLast? with
  | some last => last = "" ∨ last = "." ∨ last = ".."
  | none => false

/-- The names that lead to a place after one more name, the last one first. Two dots lead up; above
the root is the root, and above the working directory are the directories that hold it. -/
def follow (absolute : Bool) (walked : List String) (n : String) : List String :=
  if n = ".." then
    match walked with
    | [] => if absolute then [] else [n]
    | last :: above => if last = ".." then n :: walked else above
  else n :: walked

/-- The key of the place that is reached by names, the last one first. -/
def key (absolute : Bool) (walked : List String) : String :=
  (if absolute then "/" else "") ++ "/".intercalate walked.reverse

/-- The longest name in bytes. -/
def maxName : Nat := 255

/-- Walk along names from a directory: the key of the last one, which need not be there. All names
before it have to lead to directories. -/
def walk (d : Disk) (absolute : Bool) : List String → List String → Except Refusal String
  | walked, [] => .ok (key absolute walked)
  | walked, n :: rest =>
    if maxName < n.utf8ByteSize then .error .nameTooLong
    else
      let walked := follow absolute walked n
      match rest, d.nodes.get? (key absolute walked) with
      | [], _ => .ok (key absolute walked)
      | _ :: _, some .directory => d.walk absolute walked rest
      | _ :: _, some _ => .error .notADirectory
      | _ :: _, none => .error .notFound

/-- The key of the place that a path leads to. -/
def locate (d : Disk) (path : String) : Except Refusal String :=
  if path = "" then .error .notFound
  else if path.toList.contains '\x00' then .error .zeroByte
  else d.walk (isAbsolute path) [] (names path)

/-- What stands under a path. -/
def node? (d : Disk) (path : String) : Option Node :=
  match d.locate path with
  | .ok k => d.nodes.get? k
  | .error _ => none

/-- Put a file or a directory under a path, with all directories along it. -/
def place (d : Disk) (path : String) (node : Node) : Disk :=
  let ns := names path
  let absolute := isAbsolute path
  let place := fun k => key absolute ((ns.take k).foldl (follow absolute) [])
  let directories := (List.range ns.length).tail.map place
  ⟨(directories.foldl (fun t k => if t.contains k then t else t.insert k .directory) d.nodes).insert
    (place ns.length) node⟩

/-! ## Opening and writing -/

/-- What a path opens for reading. A directory can be opened, but has no bytes to read. -/
def openForReading (d : Disk) (path : String) : Except Refusal Node := do
  let k ← d.locate path
  match d.nodes.get? k with
  | none => .error .notFound
  | some .directory => .ok .directory
  | some node => if namesDirectory path then .error .notADirectory else .ok node

/-- The key of what a path opens for reading. -/
def placeForReading (d : Disk) (path : String) : Except Refusal String := do
  let _ ← d.openForReading path
  d.locate path

/-- The bytes of what was opened. -/
def Node.bytes : Node → Except Refusal ByteArray
  | file contents => .ok contents
  | directory => .error .isADirectory
  | sink | full => .ok .empty

/-- The key of a file that a path opens for writing, and what stands there. A slash at the end asks
for a directory that cannot be written; a dot at the end has to be inside one. -/
def openForWriting (d : Disk) (path : String) : Except Refusal (String × Node) := do
  let k ← d.locate path
  match d.nodes.get? k, (pieces path).getLast? with
  | some .directory, _ | _, some "" => .error .isADirectory
  | some _, some "." => .error .notADirectory
  | none, some "." => .error .notFound
  | node, _ => .ok (k, node.getD (.file .empty))

/-- The disk after a file is created or emptied, and what stands there then. -/
def create (d : Disk) (path : String) : Except Refusal (Disk × String × Node) := do
  let (k, node) ← d.openForWriting path
  match node with
  | .file _ => .ok (⟨d.nodes.insert k (.file .empty)⟩, k, .file .empty)
  | node => .ok (d, k, node)

/-- The disk after bytes are written over the start of the file under a key. -/
def overwrite (d : Disk) (k : String) (bytes : ByteArray) : Disk :=
  match d.nodes.get? k with
  | some (.file old) => ⟨d.nodes.insert k (.file (bytes ++ old.extract bytes.size old.size))⟩
  | _ => d

/-- The disk after a file is replaced. -/
def replace (d : Disk) (path : String) (bytes : ByteArray) : Except Refusal Disk := do
  let (d, k, node) ← d.create path
  match node with
  | .full => if bytes.isEmpty then .ok d else .error .noSpace
  | _ => .ok (d.overwrite k bytes)

/-- The text of the file under a path. -/
def readText (d : Disk) (path : String) : Except Refusal String := do
  let node ← d.openForReading path
  let bytes ← node.bytes
  match String.fromUTF8? bytes with
  | some text => .ok text
  | none => .error .notText

instance : FileStore Disk where
  read d name := (d.readText name).mapError Refusal.message
  write d name contents := (d.replace name contents.toUTF8).mapError Refusal.message

end Disk

end DeckScript
