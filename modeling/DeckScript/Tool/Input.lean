import DeckScript.Run.Reading
import DeckScript.Tool.Disk

/-!
# Reading a script off a disk

The bytes of a script come from a stream or from a place on the disk. They are fetched in chunks
while the script runs, and what has been fetched is kept until it has been read. So a file that is
changed under way is read on as it stands when the next chunk is fetched.

## Main definitions

* `Origin` — where bytes come from
* `Reader` — a state of reading: the bytes that are kept, and how far the origin has been read
* `Reader.chunk` — fetching a chunk
* `Reader.next` — reading a line
-/

namespace DeckScript

/-- Where bytes come from. -/
inductive Origin where
  /-- A stream, with all the bytes that will ever come. -/
  | stream (bytes : List UInt8)
  /-- The place under a key of the disk. -/
  | place (key : String)

/-- The bytes that an origin has at the moment. -/
def Origin.bytes (d : Disk) : Origin → Except String (List UInt8)
  | stream bytes => .ok bytes
  | place key =>
    match d.nodes.get? key with
    | some node => (node.bytes.map fun b => b.toList).mapError Disk.Refusal.message
    | none => .ok []

/-- A state of reading. -/
structure Reader where
  origin : Origin
  /-- The position at which reading fails, and why; none if it does not. -/
  breaks : Option (Nat × String)
  /-- How many bytes have been fetched. -/
  position : Nat
  /-- The bytes that have been fetched and not been read. -/
  kept : List UInt8

namespace Reader

/-- Nothing has been read. -/
def start (origin : Origin) (breaks : Option (Nat × String)) : Reader := ⟨origin, breaks, 0, []⟩

/-- How many bytes are fetched at once. -/
def chunkSize : Nat := 8192

/-- The bytes that can still be fetched, up to the position at which reading fails. -/
def ahead (r : Reader) (bytes : List UInt8) : List UInt8 :=
  match r.breaks with
  | none => bytes.drop r.position
  | some (n, _) => (bytes.take n).drop r.position

/-- The next chunk; it is empty at the end. -/
def chunk (d : Disk) (r : Reader) : Except String (List UInt8) :=
  match r.origin.bytes d with
  | .error reason => .error reason
  | .ok bytes =>
    match r.breaks with
    | none => .ok ((r.ahead bytes).take chunkSize)
    | some (n, reason) =>
      if n ≤ r.position then .error reason else .ok ((r.ahead bytes).take chunkSize)

/-- The state after a chunk is fetched. -/
def fetch (r : Reader) (bytes : List UInt8) : Reader :=
  { r with position := r.position + bytes.length, kept := r.kept ++ bytes }

/-- How many bytes can still be fetched. -/
def left (d : Disk) (r : Reader) : Nat :=
  match r.origin.bytes d with
  | .error _ => 0
  | .ok bytes => (r.ahead bytes).length

/-- The bytes ahead of a chunk are gone when it has been fetched. -/
theorem ahead_fetch (r : Reader) (bytes chunk : List UInt8) :
    (r.fetch chunk).ahead bytes = (r.ahead bytes).drop chunk.length := by
  rcases r with ⟨origin, _ | ⟨n, reason⟩, position, kept⟩ <;> simp [ahead, fetch]

/-- A chunk is cut off the bytes ahead. -/
theorem exists_of_chunk {d : Disk} {r : Reader} {chunk : List UInt8} (h : r.chunk d = .ok chunk) :
    ∃ bytes, r.origin.bytes d = .ok bytes ∧ chunk = (r.ahead bytes).take chunkSize := by
  rw [Reader.chunk] at h
  split at h
  · cases h
  · rename_i bytes hbytes
    refine ⟨bytes, hbytes, ?_⟩
    split at h
    · exact (Except.ok.inj h).symm
    · split at h
      · cases h
      · exact (Except.ok.inj h).symm

/-- Fetching gets ahead. -/
theorem left_fetch_lt {d : Disk} {r : Reader} {chunk : List UInt8} (h : r.chunk d = .ok chunk)
    (hchunk : chunk ≠ []) : (r.fetch chunk).left d < r.left d := by
  obtain ⟨bytes, hbytes, hcut⟩ := exists_of_chunk h
  have horigin : (r.fetch chunk).origin = r.origin := rfl
  rw [left, left, horigin, hbytes]
  dsimp only
  rw [ahead_fetch, List.length_drop]
  have hpos := List.length_pos_iff.2 hchunk
  have hle : chunk.length ≤ (r.ahead bytes).length := by
    rw [hcut]
    exact List.length_take_le' _ _
  omega

/-- Read a line. A line ends in a break; the last one may also end with the bytes. -/
def next (d : Disk) (r : Reader) : ReadStep Reader :=
  match r.kept.dropWhile (· ≠ 0x0A) with
  | _ :: rest =>
    .line (Text.dropReturn 0x0D (r.kept.takeWhile (· ≠ 0x0A))) { r with kept := rest }
  | [] =>
    match _h : r.chunk d with
    -- What was kept of an unfinished line is lost.
    | .error reason => .broken reason
    | .ok [] => if r.kept.isEmpty then .ended r else .line r.kept { r with kept := [] }
    | .ok (b :: bs) => next d (r.fetch (b :: bs))
termination_by r.left d
decreasing_by exact left_fetch_lt _h (List.cons_ne_nil b bs)

end Reader

end DeckScript
