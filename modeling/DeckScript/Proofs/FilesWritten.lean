import DeckScript.Proofs.DataRows
import DeckScript.Proofs.Frames
import DeckScript.Proofs.Journal

/-!
# The files that a run writes

Only data blocks write files. A run notes every file that it replaces, and its journal is what its
acts note; so the files at its end are those at its start with the writes of its data blocks, one
after the other. What a data block writes is decided by its rows, and its rows are never carried
out: they belong to the block wherever its header leads, and the run goes on behind them.

## Main definitions

* `Act.save?` — the file that an act replaces, with its new contents
* `saveFile` — the files after one of them is replaced

## Main results

* `files_run` — the files of a run are those that its data blocks leave
* `Frame.Performs.notMem_rows` — no act of a run stands on a row
* `exists_runBlock_data` — a data block is over whatever comes of its header and its write
* `data_blocks_write_files` — what is in the files after a run with files in memory
-/

namespace DeckScript

variable {φ : Type}

/-! ## Writes -/

/-- The file that an act replaces, with its new contents. -/
def Act.save? : Act φ → Option (String × String)
  | data header rows w =>
    (Data.target (header.record w.store)).toOption.map fun name => (name, Data.contents rows)
  | call _ | loop _ _ _ => none

variable [FileStore φ]

/-- The files after one of them is replaced, if they allow it. -/
def saveFile (files : φ) (p : String × String) : φ := Event.redo (.saved p.1 p.2) files

/-- Of what a request notes nothing changes the files. -/
theorem Request.foldl_redo_events (env : Environment) (w : World φ) (request : Request)
    (files : φ) : (request.events env w).foldl (fun files e => e.redo files) files = files := by
  cases request with
  | enter name =>
    rw [events]
    split <;> rfl
  | fillGrid _ _ => rfl
  | chart _ => rfl
  | emit _ => rfl
  | set _ _ => rfl
  | run _ => rfl

/-- What an act notes changes the files by its own write, if it has one. -/
theorem Act.foldl_redo_events (env : Environment) (a : Act φ) (files : φ) :
    (a.events env).foldl (fun files e => e.redo files) files =
      a.save?.toList.foldl saveFile files := by
  cases a with
  | call p =>
    rw [events, List.foldl_append]
    have htraced : (if env.traced then [Event.traced p.record.line p.record.tokens]
        else []).foldl (fun files e => e.redo files) files = files := by
      split <;> rfl
    rw [htraced]
    cases p.request? env with
    | none => rfl
    | some request => exact request.foldl_redo_events env p.world files
  | loop header body w =>
    rw [events]
    cases Loop.Header.ofRecord (header.record w.store) with
    | error f => rfl
    | ok found =>
      obtain ⟨placeholder, source⟩ := found
      cases source with
      | range _ _ _ => rfl
      | items _ => rfl
      | file _ => rfl
  | data header rows w =>
    rw [events, save?]
    cases Data.target (header.record w.store) with
    | error f => rfl
    | ok name => rfl

/-- The files of a run are those that its data blocks leave, one after the other. -/
theorem files_run (env : Environment) (levels : Nat) (source : Source) (w : World φ) :
    (run env levels source w).world.files =
      ((history env levels source w).filterMap Act.save?).foldl saveFile w.files := by
  obtain ⟨events, hjournal, hfiles⟩ := (precedes_run env levels source w).journal
  -- The events behind the start of the run are those of its acts.
  rw [journal_run] at hjournal
  have hevents := List.append_cancel_right hjournal
  rw [hfiles, ← hevents, replay, List.foldr_reverse]
  change _ = List.foldl saveFile w.renew.files _
  generalize w.renew.files = files
  -- One act after the other, from any files on.
  induction history env levels source w generalizing files with
  | nil => rfl
  | cons a rest ih =>
    rw [List.flatMap_cons, List.foldl_append, Act.foldl_redo_events, ih, List.filterMap_cons]
    cases a.save? <;> rfl

/-! ## Rows -/

omit [FileStore φ] in
/-- In front of a row of a data block the block is open. -/
theorem Source.openAt_row {source : Source} {header l : SourceLine} {rows : List SourceLine}
    (h : .data header rows ∈ source.blocks) (hl : l ∈ rows) :
    ∃ rs, source.openAt l.number = some (.data header rs) := by
  obtain ⟨before, tail, hlines, hclosed, hkeyword, hrows, -⟩ := exists_rows h
  obtain ⟨earlier, later, hsplit⟩ := List.append_of_mem hl
  have hprefix : earlier ++ l :: later <+: tail := by
    rw [← hsplit, hrows]
    exact List.takeWhile_prefix _
  obtain ⟨rest, hrest⟩ := hprefix
  have hearlier : ∀ m ∈ earlier, m.IsRow := by
    intro m hm
    have hmem : m ∈ tail.takeWhile (·.IsRow) := by
      rw [← hrows, hsplit]
      exact List.mem_append_left _ hm
    exact SourceLine.isRow_of_mem_takeWhile hmem
  have hplace : source.lines = (before ++ header :: earlier) ++ l :: (later ++ rest) := by
    rw [hlines, ← hrest]
    simp
  have hnumber : l.number - 1 = (before ++ header :: earlier).length := by
    rw [number_of_lines_eq hplace, Nat.add_sub_cancel]
  have hstep : Block.step none header = (some (.data header []), none) := by
    rw [Block.step, hkeyword]
    rfl
  refine ⟨earlier.reverse ++ [], ?_⟩
  rw [openAt, hnumber, hplace, List.take_left, Block.split_append, hclosed,
    Block.split_cons_of_step hstep, Block.split_rows hearlier]

/-- No act stands on a row of a data block. -/
theorem Frame.Performs.notMem_rows {env : Environment} {f : Frame φ} {l header : SourceLine}
    {rows : List SourceLine} {a : Act φ} (h : f.Performs env l a)
    (hb : .data header rows ∈ f.source.blocks) : l ∉ rows := by
  intro hl
  obtain ⟨-, -, -, hacts⟩ := h.exists_actsIn
  obtain ⟨rs, hopen⟩ := Source.openAt_row hb hl
  rw [hopen] at hacts
  exact hacts

/-- A data block is over whatever comes of its header and of its write, and nothing is carried out
for it. The report, the files and the journal are all that it may change. -/
theorem exists_runBlock_data (header : SourceLine) (rows : List SourceLine) (w : World φ) :
    ∃ v, v = { w with report := v.report, files := v.files, journal := v.journal } ∧
      ∀ exec : Record → Step φ, runBlock exec (.data header rows) w = .finished v := by
  simp only [runBlock, runData]
  cases Data.target (header.record w.store) with
  | error f => exact ⟨_, rfl, fun _ => rfl⟩
  | ok name =>
    simp only [World.save?]
    cases FileStore.write w.files name (Data.contents rows) with
    | error reason => exact ⟨_, rfl, fun _ => rfl⟩
    | ok files => exact ⟨_, rfl, fun _ => rfl⟩

/-! ## Files in memory -/

/-- Files in memory refuse no write, so a data block only fails if its header names no file. -/
theorem MemoryFiles.fault?_data_eq_none_iff {env : Environment} {header : SourceLine}
    {rows : List SourceLine} {w : World MemoryFiles} :
    (Act.data header rows w).fault? env = none ↔
      ∃ name, (Act.data header rows w).save? = some (name, Data.contents rows) := by
  rw [Act.fault?, Act.attempt, runData, Act.save?]
  cases Data.target (header.record w.store) with
  | error f => simp [Attempt.fault?, Except.toOption]
  | ok name => simp [Attempt.fault?, Except.toOption, World.save?, FileStore.write]

/-- After a script is compiled with the standard vocabulary and files in memory, the files are those
at the start with the writes of its data blocks, in the order in which they were carried out. A data
block writes if and only if it has no fault. Its rows are the lines behind its header up to the
first one that closes it, or to the end of a script that does not break off; and the file has one
line for each row with exactly two words, which is cut at its tab into these words again. No act of
the run stands on a row. Whatever comes of a data block, it is over without anything else carried
out, in any kind of files. -/
theorem data_blocks_write_files (includeLimit : Nat) (traced : Bool)
    (runner : Runner) (levels : Nat) (source : Source)
    (w : World MemoryFiles) :
    let env : Environment := ⟨.standard, includeLimit, traced, runner⟩
    let acts := history env levels source w
    (compile env levels source w).2.files =
        (acts.filterMap Act.save?).foldl (fun files p => files.write p.1 p.2) w.files ∧
      (∀ header rows u, .data header rows u ∈ acts →
        let file := linesText ((Data.words rows).map ("\t".intercalate ·))
        ((Act.data header rows u).fault? env = none ↔
          ∃ name, (Act.data header rows u).save? = some (name, file)) ∧
        Data.decode file = Data.words rows ∧
        ∃ name f before tail, Runs env source w name f ∧
          f.source.lines = before ++ header :: tail ∧ header.keyword? = some "data" ∧
          rows = tail.takeWhile (·.IsRow) ∧ (f.source.failure = none ∨ rows ≠ tail)) ∧
      (∀ a ∈ acts, ∃ name f l, Runs env source w name f ∧ f.Performs env l a ∧
        ∀ header rows, .data header rows ∈ f.source.blocks → l ∉ rows) ∧
      ∀ {ψ : Type} [FileStore ψ] header rows (u : World ψ),
        ∃ v, v = { u with report := v.report, files := v.files, journal := v.journal } ∧
          ∀ exec : Record → Step ψ, runBlock exec (.data header rows) u = .finished v := by
  intro env acts
  refine ⟨files_run env levels source w, ?_, ?_, fun header rows u =>
    exists_runBlock_data header rows u⟩
  · intro header rows u hact file
    have hfile : file = Data.contents rows := (Data.contents_eq rows).symm
    rw [hfile, Data.decode_contents]
    refine ⟨MemoryFiles.fault?_data_eq_none_iff, rfl, ?_⟩
    obtain ⟨name, f, l, hf, hperforms⟩ := exists_performs_of_mem_history rfl hact
    cases hperforms with
    | data hcomes =>
      obtain ⟨before, tail, hlines, -, hkeyword, hrows, hends⟩ :=
        Source.exists_rows hcomes.mem_blocks
      exact ⟨name, f, before, tail, hf, hlines, hkeyword, hrows, hends⟩
  · intro a ha
    obtain ⟨name, f, l, hf, hperforms⟩ := exists_performs_of_mem_history rfl ha
    exact ⟨name, f, l, hf, hperforms, fun header rows hb => hperforms.notMem_rows hb⟩

end DeckScript
