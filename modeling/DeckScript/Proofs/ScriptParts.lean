import DeckScript.Proofs.BlockLines
import DeckScript.Proofs.ScriptText

/-!
# Scripts in two parts

A script may be cut in two behind a line break at which no block is open. Its lines are then those
of the first part and those of the second with higher numbers, and the same is true of its blocks,
whether the script ends behind the second part or breaks off there.

## Main definitions

* `Source.WholeLines` — bytes that end with a line break, if there are any
* `Source.Settled` — whole lines that leave no block open
* `numberedFrom` — lines of bytes as lines of a script, numbered from any number on

## Main results

* `Source.lines_append` — the lines of a script in two parts
* `Source.blocks_append` — the blocks of a script in two parts
-/

namespace DeckScript

/-! ## Lines -/

/-- Lines of bytes as lines of a script, numbered from `k` on. -/
def numberedFrom (k : Nat) (ls : List (List UInt8)) : List SourceLine :=
  (ls.zipIdx k).map fun p => ⟨p.2, Text.Utf8.decode p.1⟩

theorem numberedFrom_append (k : Nat) (ls ms : List (List UInt8)) :
    numberedFrom k (ls ++ ms) = numberedFrom k ls ++ numberedFrom (k + ls.length) ms := by
  rw [numberedFrom, List.zipIdx_append, List.map_append, numberedFrom, numberedFrom]

theorem length_numberedFrom (k : Nat) (ls : List (List UInt8)) :
    (numberedFrom k ls).length = ls.length := by
  rw [numberedFrom, List.length_map, List.length_zipIdx]

/-- The lines are the same from whatever number on they are numbered. -/
theorem forall₂_numberedFrom {N : Nat → Nat → Prop} {k m : Nat} (hN : ∀ n, N (k + n) (m + n))
    (ls : List (List UInt8)) :
    List.Forall₂ (SourceLine.Alike N) (numberedFrom k ls) (numberedFrom m ls) := by
  induction ls generalizing k m with
  | nil => exact .nil
  | cons l rest ih =>
    have hrest (n : Nat) : N (k + 1 + n) (m + 1 + n) := by
      have := hN (1 + n)
      rwa [← Nat.add_assoc, ← Nat.add_assoc] at this
    exact .cons ⟨hN 0, rfl⟩ (ih hrest)

namespace Source

theorem lines_eq_numberedFrom (source : Source) :
    source.lines = numberedFrom 1 source.byteLines := rfl

/-- Bytes that are whole lines: the last of them is a line break, if there are any. -/
def WholeLines (bytes : List UInt8) : Prop := ∀ b ∈ bytes.getLast?, b = 0x0A

theorem byteLines_append {a : List UInt8} (ha : WholeLines a) (b : List UInt8)
    (failure : Option String) :
    byteLines ⟨a ++ b, failure⟩ = byteLines ⟨a, none⟩ ++ byteLines ⟨b, failure⟩ := by
  cases failure with
  | none => exact Text.allLines_append ha 0x0D b
  | some reason =>
    -- Nothing is left behind the last break of the first part, so all its lines are ended.
    obtain ⟨happend, htail⟩ := Text.breakLines_append ha b
    simp only [byteLines, Text.allLines, Text.closedLines, happend, htail, List.map_append,
      List.isEmpty_nil, if_true, List.append_nil]

/-- The lines of a script in two parts, the first of which is whole lines. -/
theorem lines_append {a : List UInt8} (ha : WholeLines a) (b : List UInt8)
    (failure : Option String) :
    lines ⟨a ++ b, failure⟩ = lines ⟨a, none⟩ ++
      numberedFrom (1 + (lines ⟨a, none⟩).length) (byteLines ⟨b, failure⟩) := by
  rw [lines_eq_numberedFrom, byteLines_append ha, numberedFrom_append, lines_eq_numberedFrom,
    length_numberedFrom]

/-! ## Blocks -/

/-- Whole lines that leave no block open. -/
structure Settled (bytes : List UInt8) : Prop where
  whole : WholeLines bytes
  closed : (Block.split none (lines ⟨bytes, none⟩)).2 = none

theorem settled_nil : Settled [] where
  whole := fun _ h => nomatch h
  closed := by
    rw [lines_eq_numberedFrom, byteLines, Text.allLines, Text.closedLines,
      Text.breakLines_of_notMem List.not_mem_nil]
    rfl

/-- The blocks of lines, of which the last is left out if the lines break off in it. -/
def blocksOf (failure : Option String) (ls : List SourceLine) : List Block :=
  (Block.split none ls).1 ++
    match failure with
    | none => ((Block.split none ls).2.map OpenBlock.close).toList
    | some _ => []

theorem blocks_eq_blocksOf (source : Source) :
    source.blocks = blocksOf source.failure source.lines := by
  obtain ⟨bytes, failure⟩ := source
  cases failure with
  | none => rfl
  | some reason => exact (List.append_nil _).symm

/-- The blocks of lines that are the same but for their numbers. -/
theorem forall₂_blocksOf {N : Nat → Nat → Prop} {ls ms : List SourceLine}
    (h : List.Forall₂ (SourceLine.Alike N) ls ms) (failure : Option String) :
    List.Forall₂ (Block.Alike N) (blocksOf failure ls) (blocksOf failure ms) := by
  obtain ⟨hopen, hblocks⟩ := Block.alike_split h .none
  refine List.rel_append hblocks ?_
  cases failure with
  | some reason => exact .nil
  | none =>
    revert hopen
    generalize (Block.split none ls).2 = state
    generalize (Block.split none ms).2 = state'
    rintro (h | -)
    · exact .cons h.close .nil
    · exact .nil

/-- The blocks of a script in two parts, the first of which leaves no block open. -/
theorem blocks_append {a : List UInt8} (ha : Settled a) (b : List UInt8)
    (failure : Option String) :
    blocks ⟨a ++ b, failure⟩ = blocks ⟨a, none⟩ ++ blocksOf failure
      (numberedFrom (1 + (lines ⟨a, none⟩).length) (byteLines ⟨b, failure⟩)) := by
  have hfirst : blocks ⟨a, none⟩ = (Block.split none (lines ⟨a, none⟩)).1 :=
    blocks_of_split rfl (Prod.ext rfl ha.closed)
  rw [hfirst, blocks_eq_blocksOf]
  simp only [blocksOf, lines_append ha.whole, Block.split_append, ha.closed, List.append_assoc]

end Source

end DeckScript
