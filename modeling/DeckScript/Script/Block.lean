import DeckScript.Script.Source
import DeckScript.Token.Record

/-!
# Blocks

The lines of a script fall into blocks: single directives, loops with their bodies and data blocks
with their rows. Comment lines and lines without tokens belong to no block, except as rows of data.
Which lines make up which block depends on their text alone: the first token of a line is never
replaced by a variable's value.

A block that is still open when the script ends is closed there. When the script breaks off, an
open block is lost.

## Main definitions

* `SourceLine.keyword?`, `SourceLine.record` — the first token of a line that is not a comment, and
  the line's record
* `Block` — a directive, a loop or a data block
* `OpenBlock` — a loop or a data block whose end has not come yet
* `Block.step`, `Block.split` — reading one line, and many
* `Source.blocks` — the blocks of a script
-/

namespace DeckScript

/-- The first token of a line; none for a comment line or a line without tokens. -/
def SourceLine.keyword? (l : SourceLine) : Option String :=
  if l.text.toList.head? = some '#' then none else (tokenize l.text).head?

/-- The record of a line, with the variables of a store. -/
def SourceLine.record (l : SourceLine) (store : Store) : Record := .ofLine store l.number l.text

/-- The first token of a line is taken as it is, the others by their values. -/
theorem SourceLine.tokens_record {l : SourceLine} {first : String} {others : List String}
    (h : tokenize l.text = first :: others) (store : Store) :
    (l.record store).tokens = first :: others.map store.resolve := by
  rw [record, Record.ofLine, h, resolveArgs]

/-- A part of a script that is carried out as one. -/
inductive Block where
  | directive (line : SourceLine)
  | loop (header : SourceLine) (body : List SourceLine)
  | data (header : SourceLine) (rows : List SourceLine)
  deriving DecidableEq, Repr

/-- A loop or a data block with the lines it has so far, the last one first. -/
inductive OpenBlock where
  | loop (header : SourceLine) (body : List SourceLine)
  | data (header : SourceLine) (rows : List SourceLine)
  deriving DecidableEq, Repr

/-- The block that an open one becomes when it ends. -/
def OpenBlock.close : OpenBlock → Block
  | loop header body => .loop header body.reverse
  | data header rows => .data header rows.reverse

namespace Block

/-- Read one line: the block that is open after it, and the block that it completes. -/
def step : Option OpenBlock → SourceLine → Option OpenBlock × Option Block
  | none, l =>
    match l.keyword? with
    | none => (none, none)
    | some keyword =>
      if keyword = "for" then (some (.loop l []), none)
      else if keyword = "data" then (some (.data l []), none)
      else (none, some (.directive l))
  | some (.loop header body), l =>
    -- Loops do not nest: a further header is a line of the body like any other.
    match l.keyword? with
    | none => (some (.loop header body), none)
    | some keyword =>
      if keyword = "efor" then (none, some (OpenBlock.loop header body).close)
      else (some (.loop header (l :: body)), none)
  | some (.data header rows), l =>
    -- Rows are taken as they are written, so a comment line is a row too.
    if Text.trim l.text = "edata" then (none, some (OpenBlock.data header rows).close)
    else (some (.data header (l :: rows)), none)

/-- Read lines: the blocks that they complete, and the one that is open after them. -/
def split : Option OpenBlock → List SourceLine → List Block × Option OpenBlock
  | state, [] => ([], state)
  | state, l :: rest =>
    let (state, done) := step state l
    let (blocks, state) := split state rest
    (done.toList ++ blocks, state)

/-- Reading lines in two parts completes the same blocks as reading them at once. -/
theorem split_append (state : Option OpenBlock) (ls ms : List SourceLine) :
    split state (ls ++ ms) =
      ((split state ls).1 ++ (split (split state ls).2 ms).1, (split (split state ls).2 ms).2) := by
  induction ls generalizing state with
  | nil => simp [split]
  | cons l rest ih => simp [split, ih]

end Block

/-- The blocks of a script in order. -/
def Source.blocks (s : Source) : List Block :=
  let (blocks, state) := Block.split none s.lines
  match s.failure with
  | none => blocks ++ (state.map OpenBlock.close).toList
  | some _ => blocks

end DeckScript
