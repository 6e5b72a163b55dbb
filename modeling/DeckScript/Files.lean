import DeckScript.Table

/-!
# Files

Scripts read and write named files. Where the files are kept is open: anything that can read a
whole file and replace a whole file will do.

## Main definitions

* `FileStore` — reading and writing named files
* `MemoryFiles` — files held in memory
-/

namespace DeckScript

/-- A place where named files are kept. A refusal is given as its reason. -/
class FileStore (φ : Type) where
  /-- The contents of a file. -/
  read : φ → String → Except String String
  /-- The files after one is created or replaced. -/
  write : φ → String → String → Except String φ

/-- Files held in memory, by their names. -/
structure MemoryFiles where
  table : Table String

namespace MemoryFiles

/-- No files. -/
def empty : MemoryFiles := ⟨Table.empty⟩

/-- The contents of a file. -/
def read (files : MemoryFiles) (name : String) : Except String String :=
  match files.table.get? name with
  | some contents => .ok contents
  | none => .error ("open " ++ name ++ ": no such file")

/-- The files after one is created or replaced. -/
def write (files : MemoryFiles) (name contents : String) : MemoryFiles :=
  ⟨files.table.insert name contents⟩

instance : FileStore MemoryFiles where
  read := read
  write files name contents := .ok (files.write name contents)

end MemoryFiles

end DeckScript
