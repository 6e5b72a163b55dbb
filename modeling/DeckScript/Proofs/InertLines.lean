import DeckScript.Proofs.CommentText
import DeckScript.Proofs.Composition
import DeckScript.Proofs.LineText

/-!
# Comments and blank lines

Outside of data blocks, lines without a keyword may be put into a script or taken out of it, and
comments may be put behind lines that are no charts. The script then does what it did before. Only
the numbers of its lines are others, and the faults in the report tell the new ones.

## Main definitions

* `IsVoid` — a comment line, or a line without tokens
* `Zone` — whether a line stands in a loop, in a data block or in neither
* `Edit`, `Edit.before`, `Edit.after` — what is done to a line, and the line before and after it
* `Inert` — edits of the lines of a script that do not change what it does
* `newNumber` — the number of a line after edits

## Main results

* `exchangeable_blocks` — the blocks of a script before and after inert edits
* `compile_inert` — a script and its inert edit do the same
-/

namespace DeckScript

/-! ## Void lines and zones -/

/-- A comment line, or a line in which there is nothing but white space and comments. -/
def IsVoid (text : String) : Prop := text.toList.head? = some '#' ∨ tokenize text = []

instance : DecidablePred IsVoid := fun text =>
  inferInstanceAs (Decidable (text.toList.head? = some '#' ∨ tokenize text = []))

theorem SourceLine.keyword?_eq_none_iff {l : SourceLine} : l.keyword? = none ↔ IsVoid l.text := by
  rw [keyword?, IsVoid]
  split
  · rename_i hcomment
    simp [hcomment]
  · rename_i hcomment
    simp [hcomment]

/-- Where a line stands. -/
inductive Zone where
  | script
  | loop
  | data
  deriving DecidableEq, Repr

/-- Where the line behind a line stands. -/
def Zone.next (text : String) : Zone → Zone
  | script =>
    match (SourceLine.mk 0 text).keyword? with
    | none => .script
    | some keyword => if keyword = "for" then .loop else if keyword = "data" then .data else .script
  | loop => if (SourceLine.mk 0 text).keyword? = some "efor" then .script else .loop
  | data => if Text.trim text = "edata" then .script else .data

/-- Where the lines behind an open block stand. -/
def zoneOf : Option OpenBlock → Zone
  | none => .script
  | some (.loop _ _) => .loop
  | some (.data _ _) => .data

theorem zoneOf_step (state : Option OpenBlock) (l : SourceLine) :
    zoneOf (Block.step state l).1 = (zoneOf state).next l.text := by
  have hkeyword : (SourceLine.mk 0 l.text).keyword? = l.keyword? := rfl
  rcases state with - | ⟨header, body⟩ | ⟨header, rows⟩
  · rw [Block.step, zoneOf, Zone.next, hkeyword]
    cases l.keyword? with
    | none => rfl
    | some keyword =>
      dsimp only
      split_ifs <;> rfl
  · rw [Block.step, zoneOf, Zone.next, hkeyword]
    cases l.keyword? with
    | none => rfl
    | some keyword =>
      simp only [Option.some.injEq]
      split_ifs <;> rfl
  · rw [Block.step, zoneOf, Zone.next]
    split_ifs <;> rfl

/-- A void line is passed over outside of data blocks. -/
theorem Block.step_of_isVoid {state : Option OpenBlock} (hzone : zoneOf state ≠ .data)
    {l : SourceLine} (h : IsVoid l.text) : step state l = (state, none) := by
  have hkeyword := SourceLine.keyword?_eq_none_iff.2 h
  rcases state with - | ⟨header, body⟩ | ⟨header, rows⟩
  · rw [step, hkeyword]
  · rw [step, hkeyword]
  · exact absurd rfl hzone

/-! ## Edits -/

/-- What is done to a line of a script. -/
inductive Edit where
  | keep (text : String)
  /-- A comment is put behind the line. -/
  | comment (text comment : String)
  | insert (text : String)
  | remove (text : String)
  deriving DecidableEq, Repr

/-- The line before the edit, if there is one. -/
def Edit.before : Edit → Option String
  | keep text | comment text _ | remove text => some text
  | insert _ => none

/-- The line after the edit, if there is one. -/
def Edit.after : Edit → Option String
  | keep text | insert text => some text
  | comment text note => some (text ++ note)
  | remove _ => none

/-- Edits of lines that do not change what the lines do: void lines are put in and taken out, and
comments are put behind lines that are no charts and in which everything is closed. Data blocks are
left alone. -/
inductive Inert : Zone → List Edit → Prop
  | nil (zone : Zone) : Inert zone []
  | keep {zone : Zone} {text : String} {es : List Edit} :
    Inert (zone.next text) es → Inert zone (.keep text :: es)
  | comment {zone : Zone} {text comment : String} {es : List Edit} : zone ≠ .data →
    ¬IsChartLine text → text.toList.head? = some '#' ∨ IsClosed text → IsComment comment →
    Inert (zone.next text) es → Inert zone (.comment text comment :: es)
  | insert {zone : Zone} {text : String} {es : List Edit} : zone ≠ .data → IsVoid text →
    Inert zone es → Inert zone (.insert text :: es)
  | remove {zone : Zone} {text : String} {es : List Edit} : zone ≠ .data → IsVoid text →
    Inert zone es → Inert zone (.remove text :: es)

/-- How many lines there are after edits in front of line `i` before them, both counted from
zero. -/
def newIndex : List Edit → Nat → Nat
  | [], i => i
  | .insert _ :: es, i => newIndex es i + 1
  | .remove _ :: es, i => newIndex es (i - 1)
  | .keep _ :: _, 0 | .comment _ _ :: _, 0 => 0
  | .keep _ :: es, i + 1 | .comment _ _ :: es, i + 1 => newIndex es i + 1

/-- The number after edits of the line that has the number `n` before them. -/
def newNumber (es : List Edit) (n : Nat) : Nat := newIndex es (n - 1) + 1

/-! ## Blocks before and after edits -/

/-- The line with another number. -/
def SourceLine.renumber (number : Nat → Nat) (l : SourceLine) : SourceLine :=
  ⟨number l.number, l.text⟩

/-- The block with other numbers of its lines. -/
def Block.renumber (number : Nat → Nat) : Block → Block
  | directive l => .directive (l.renumber number)
  | loop header body => .loop (header.renumber number) (body.map (·.renumber number))
  | data header rows => .data (header.renumber number) (rows.map (·.renumber number))

/-- A line before and after an edit. -/
def SourceLine.Edited (number : Nat → Nat) (l m : SourceLine) : Prop :=
  (l.renumber number).Exchangeable m

/-- A block before and after edits. -/
def Block.Edited (number : Nat → Nat) (b c : Block) : Prop :=
  (b.renumber number).Exchangeable c

/-- An open block before and after edits. -/
inductive OpenBlock.Edited (number : Nat → Nat) : OpenBlock → OpenBlock → Prop
  | loop {l m : SourceLine} {ls ms : List SourceLine} : l.Edited number m →
    List.Forall₂ (SourceLine.Edited number) ls ms → Edited number (.loop l ls) (.loop m ms)
  | data {l m : SourceLine} {ls ms : List SourceLine} : l.Edited number m →
    ls.map SourceLine.text = ms.map SourceLine.text → Edited number (.data l ls) (.data m ms)

section Blocks

variable {number : Nat → Nat} {state state' : Option OpenBlock} {l m : SourceLine}

theorem OpenBlock.Edited.close {b c : OpenBlock} (h : b.Edited number c) :
    b.close.Edited number c.close := by
  cases h with
  | loop hheader hbody =>
    refine .loop hheader ?_
    rw [List.forall₂_map_left_iff]
    exact List.rel_reverse hbody
  | data hheader hrows =>
    refine .data hheader ?_
    rw [List.map_map, List.map_reverse, List.map_reverse, ← hrows]
    rfl

theorem Block.edited_step (hstate : Option.Rel (OpenBlock.Edited number) state state')
    (hl : l.Edited number m) (htext : zoneOf state = .data → l.text = m.text) :
    Option.Rel (OpenBlock.Edited number) (step state l).1 (step state' m).1 ∧
      List.Forall₂ (Block.Edited number) (step state l).2.toList (step state' m).2.toList := by
  have hkeyword : l.keyword? = m.keyword? := hl.keyword?
  cases hstate with
  | none =>
    rw [step, step, hkeyword]
    cases m.keyword? with
    | none => exact ⟨.none, .nil⟩
    | some keyword =>
      dsimp only
      split_ifs
      · exact ⟨.some (.loop hl .nil), .nil⟩
      · exact ⟨.some (.data hl rfl), .nil⟩
      · exact ⟨.none, .cons (Block.Exchangeable.directive hl) .nil⟩
  | some h =>
    cases h with
    | loop hheader hbody =>
      rw [step, step, hkeyword]
      cases m.keyword? with
      | none => exact ⟨.some (.loop hheader hbody), .nil⟩
      | some keyword =>
        dsimp only
        split_ifs
        · exact ⟨.none, .cons (OpenBlock.Edited.loop hheader hbody).close .nil⟩
        · exact ⟨.some (.loop hheader (.cons hl hbody)), .nil⟩
    | data hheader hrows =>
      have htext := htext rfl
      rw [step, step, htext]
      split_ifs
      · exact ⟨.none, .cons (OpenBlock.Edited.data hheader hrows).close .nil⟩
      · refine ⟨.some (.data hheader ?_), .nil⟩
        rw [List.map_cons, List.map_cons, htext, hrows]

end Blocks

/-- Texts as lines, numbered from `k` on. -/
def linesFrom (k : Nat) (texts : List String) : List SourceLine :=
  (texts.zipIdx k).map fun p => ⟨p.2, p.1⟩

@[simp] theorem linesFrom_nil (k : Nat) : linesFrom k [] = [] := rfl

@[simp] theorem linesFrom_cons (k : Nat) (text : String) (texts : List String) :
    linesFrom k (text :: texts) = ⟨k, text⟩ :: linesFrom (k + 1) texts := rfl

@[simp] theorem map_text_linesFrom (k : Nat) (texts : List String) :
    (linesFrom k texts).map SourceLine.text = texts := by
  induction texts generalizing k with
  | nil => rfl
  | cons text texts ih => rw [linesFrom_cons, List.map_cons, ih]

theorem Source.lines_eq_linesFrom (source : Source) :
    source.lines = linesFrom 1 (source.lines.map SourceLine.text) := by
  have hlines : source.lines = linesFrom 1 (source.byteLines.map Text.Utf8.decode) := by
    rw [lines, linesFrom, List.zipIdx_map, List.map_map]
    rfl
  rw [hlines, map_text_linesFrom]

/-- A comment behind a closed line changes nothing but the text of the line. -/
theorem edited_comment {number : Nat → Nat} {k : Nat} {text comment : String}
    (hchart : ¬IsChartLine text) (htext : IsClosed text) (hcomment : IsComment comment) :
    SourceLine.Edited number ⟨k, text⟩ ⟨number k, text ++ comment⟩ := by
  have htokens := tokenize_append_comment htext hcomment
  have hhead : (text ++ comment).toList.head? = some '#' ↔ text.toList.head? = some '#' := by
    obtain ⟨t, ht, -⟩ := hcomment.exists_toList
    rw [String.toList_append, ht]
    cases text.toList with
    | nil => simp
    | cons c rest => rfl
  refine ⟨rfl, ?_, htokens.symm, .inr hchart⟩
  rw [SourceLine.keyword?, SourceLine.keyword?, htokens]
  exact if_congr hhead.symm rfl rfl

theorem zoneOf_eq_of_rel {number : Nat → Nat} {state state' : Option OpenBlock}
    (h : Option.Rel (OpenBlock.Edited number) state state') : zoneOf state = zoneOf state' := by
  rcases h with h | -
  · cases h <;> rfl
  · rfl

/-- A line that is passed over leaves the blocks to the lines behind it. -/
theorem Block.split_cons_of_isVoid {state : Option OpenBlock} (hzone : zoneOf state ≠ .data)
    {l : SourceLine} (h : IsVoid l.text) (rest : List SourceLine) :
    split state (l :: rest) = split state rest := by
  rw [split_cons_of_step (step_of_isVoid hzone h)]
  rfl

/-- Lines behind a line before and after an edit. -/
theorem Block.edited_split_cons {number : Nat → Nat} {state state' : Option OpenBlock}
    {l m : SourceLine} {ls ms : List SourceLine}
    (hstate : Option.Rel (OpenBlock.Edited number) state state') (hl : l.Edited number m)
    (htext : zoneOf state = .data → l.text = m.text)
    (hrest : ∀ {next next'}, zoneOf next = (zoneOf state).next l.text →
      Option.Rel (OpenBlock.Edited number) next next' →
      Option.Rel (OpenBlock.Edited number) (split next ls).2 (split next' ms).2 ∧
        List.Forall₂ (Block.Edited number) (split next ls).1 (split next' ms).1) :
    Option.Rel (OpenBlock.Edited number) (split state (l :: ls)).2 (split state' (m :: ms)).2 ∧
      List.Forall₂ (Block.Edited number) (split state (l :: ls)).1
        (split state' (m :: ms)).1 := by
  obtain ⟨hnext, hdone⟩ := edited_step hstate hl htext
  obtain ⟨hopen, hblocks⟩ := hrest (zoneOf_step state l) hnext
  exact ⟨hopen, List.rel_append hdone hblocks⟩

/-- The numbers of the lines behind an edited one. -/
theorem number_succ {number : Nat → Nat} {e : Edit} {es : List Edit} {k k' d : Nat}
    (h : ∀ i, number (k + i) = k' + newIndex (e :: es) i)
    (he : ∀ i, newIndex (e :: es) (i + 1) = newIndex es i + d) (i : Nat) :
    number (k + 1 + i) = k' + d + newIndex es i := by
  rw [Nat.add_right_comm k 1 i, Nat.add_assoc, h (i + 1), he]
  omega

/-- Inert edits keep the blocks of lines but for the numbers of the lines and for texts that do not
matter. -/
theorem Inert.edited_split {zone : Zone} {es : List Edit} (h : Inert zone es) {number : Nat → Nat}
    {state state' : Option OpenBlock} (hzone : zoneOf state = zone)
    (hstate : Option.Rel (OpenBlock.Edited number) state state') {k k' : Nat}
    (hnumber : ∀ i, number (k + i) = k' + newIndex es i) :
    let old := Block.split state (linesFrom k (es.filterMap Edit.before))
    let new := Block.split state' (linesFrom k' (es.filterMap Edit.after))
    Option.Rel (OpenBlock.Edited number) old.2 new.2 ∧
      List.Forall₂ (Block.Edited number) old.1 new.1 := by
  have hzone' := zoneOf_eq_of_rel hstate
  induction h generalizing state state' k k' with
  | nil zone => exact ⟨hstate, .nil⟩
  | @keep zone text es hes ih =>
    have hfirst : number k = k' := hnumber 0
    refine Block.edited_split_cons hstate (hfirst ▸ .refl _) (fun _ => rfl) fun hnext hrel => ?_
    exact ih (hzone ▸ hnext) hrel (number_succ hnumber fun _ => rfl) (zoneOf_eq_of_rel hrel)
  | @comment zone text comment es hdata hchart htext hcomment hes ih =>
    have hfirst : number k = k' := hnumber 0
    rcases htext with hmark | hclosed
    · -- A comment line is void before and after the edit.
      have hmark' : (text ++ comment).toList.head? = some '#' := by
        rw [String.toList_append, List.head?_append, hmark]
        rfl
      have hold := Block.split_cons_of_isVoid (hzone.symm ▸ hdata) (l := ⟨k, text⟩) (.inl hmark)
        (linesFrom (k + 1) (es.filterMap Edit.before))
      have hnew := Block.split_cons_of_isVoid (hzone' ▸ hzone.symm ▸ hdata)
        (l := ⟨k', text ++ comment⟩) (.inl hmark')
        (linesFrom (k' + 1) (es.filterMap Edit.after))
      have hnext : zoneOf state = zone.next text := by
        have hstep := zoneOf_step state ⟨k, text⟩
        rw [Block.step_of_isVoid (hzone.symm ▸ hdata) (.inl hmark)] at hstep
        exact hzone ▸ hstep
      have hlines := ih hnext hstate (number_succ hnumber fun _ => rfl) hzone'
      simp only [List.filterMap_cons, Edit.before, Edit.after, linesFrom_cons, hold, hnew]
      exact hlines
    · refine Block.edited_split_cons hstate (hfirst ▸ edited_comment hchart hclosed hcomment)
        (fun h => absurd (hzone.symm.trans h) hdata) fun hnext hrel => ?_
      exact ih (hzone ▸ hnext) hrel (number_succ hnumber fun _ => rfl) (zoneOf_eq_of_rel hrel)
  | @insert zone text es hdata htext hes ih =>
    have hrest (i : Nat) : number (k + i) = k' + 1 + newIndex es i := by
      rw [hnumber i, newIndex]
      omega
    have hnew := Block.split_cons_of_isVoid (hzone' ▸ hzone.symm ▸ hdata) (l := ⟨k', text⟩) htext
      (linesFrom (k' + 1) (es.filterMap Edit.after))
    have hlines := ih hzone hstate hrest hzone'
    simp only [List.filterMap_cons, Edit.before, Edit.after, linesFrom_cons, hnew]
    exact hlines
  | @remove zone text es hdata htext hes ih =>
    have hold := Block.split_cons_of_isVoid (hzone.symm ▸ hdata) (l := ⟨k, text⟩) htext
      (linesFrom (k + 1) (es.filterMap Edit.before))
    have hlines := ih hzone hstate (number_succ (d := 0) hnumber fun _ => rfl) hzone'
    simp only [List.filterMap_cons, Edit.before, Edit.after, linesFrom_cons, hold]
    exact hlines

/-- The blocks of two scripts, one of which is an inert edit of the other. -/
theorem edited_blocks {source source' : Source} {es : List Edit} (hes : Inert .script es)
    (hlines : source.lines.map SourceLine.text = es.filterMap Edit.before)
    (hlines' : source'.lines.map SourceLine.text = es.filterMap Edit.after)
    (hfailure : source'.failure = source.failure) :
    List.Forall₂ (Block.Edited (newNumber es)) source.blocks source'.blocks := by
  have hnumber (i : Nat) : newNumber es (1 + i) = 1 + newIndex es i := by
    rw [newNumber, Nat.add_sub_cancel_left, Nat.add_comm]
  have hzone : zoneOf none = .script := rfl
  obtain ⟨hopen, hblocks⟩ := hes.edited_split hzone .none hnumber
  rw [← hlines, ← source.lines_eq_linesFrom, ← hlines', ← source'.lines_eq_linesFrom]
    at hopen hblocks
  rw [Source.blocks_eq_blocksOf, Source.blocks_eq_blocksOf, hfailure]
  refine List.rel_append hblocks ?_
  cases source.failure with
  | some reason => exact .nil
  | none =>
    revert hopen
    generalize (Block.split none source.lines).2 = state
    generalize (Block.split none source'.lines).2 = state'
    rintro (h | -)
    · exact .cons h.close .nil
    · exact .nil

/-! ## Runs -/

variable {φ : Type} [FileStore φ] {env : Environment}

theorem Block.alike_renumber (number : Nat → Nat) (b : Block) :
    b.Alike ((Lead.numbering number).Numbers []) (b.renumber number) := by
  have hline (l : SourceLine) :
      l.Alike ((Lead.numbering number).Numbers []) (l.renumber number) := ⟨rfl, rfl⟩
  have hlines (ls : List SourceLine) :
      List.Forall₂ (SourceLine.Alike ((Lead.numbering number).Numbers [])) ls
        (ls.map (·.renumber number)) := by
    rw [List.forall₂_map_right_iff]
    exact List.forall₂_same.2 fun l _ => hline l
  cases b with
  | directive l => exact .directive (hline l)
  | loop header body => exact .loop (hline header) (hlines body)
  | data header rows => exact .data (hline header) (hlines rows)

/-- Edited blocks end in the same way, in states that differ in their traces and in the numbers of
the lines in their reports. -/
theorem run_edited (henv : env.vocabulary.ReadsTokens) {source source' : Source}
    {number : Nat → Nat}
    (h : List.Forall₂ (Block.Edited number) source.blocks source'.blocks) (levels : Nat)
    (w : World φ) :
    (run env levels source w).map (.behind (.numbering number)) =
      (run env levels source' w).map (.behind (.numbering id)) := by
  have hplace : ∀ keyword d, env.vocabulary.get? keyword = some d → d.IgnoresPlace :=
    fun keyword d hd => (henv keyword d hd).1
  have hold : List.Forall₂ (Block.Alike ((Lead.numbering number).Numbers [])) source.blocks
      (source.blocks.map (Block.renumber number)) := by
    rw [List.forall₂_map_right_iff]
    exact List.forall₂_same.2 fun b _ => b.alike_renumber number
  have hnew : List.Forall₂ Block.Exchangeable (source.blocks.map (Block.renumber number))
      source'.blocks := by
    rw [List.forall₂_map_left_iff]
    exact h
  rw [map_behind_run hplace hold, map_behind_run hplace (alike_numbering_id source'.blocks),
    runBlocks_exchangeable (show env.untraced.vocabulary.ReadsTokens from henv) hnew]

/-- Let no directive look at the number of its line, and none but charts at its text, and let one
script be made of another one by inert edits: outside of data blocks, comment lines and lines of
nothing but white space and comments are put in and taken out, and comments are put behind lines
that are no charts and in which all literals and comments are closed. Compiled from the same state,
both end in the same way, with the same output, the same variables, files and random stream, and
after the same requests of their surroundings. Their reports are the same once the lines of the
script are numbered as they are after the edits. -/
theorem compile_inert (henv : env.vocabulary.ReadsTokens) {source source' : Source}
    {es : List Edit} (hes : Inert .script es)
    (hlines : source.lines.map SourceLine.text = es.filterMap Edit.before)
    (hlines' : source'.lines.map SourceLine.text = es.filterMap Edit.after)
    (hfailure : source'.failure = source.failure) (levels : Nat) (w : World φ) :
    let old := compile env levels source w
    let new := compile env levels source' w
    new.1 = old.1 ∧ new.2.output = old.2.output ∧ new.2.store = old.2.store ∧
      new.2.files = old.2.files ∧ new.2.random = old.2.random ∧
      new.2.requests = old.2.requests ∧
      new.2.report.diagnostics =
        old.2.report.diagnostics.map (Diagnostic.renumber (newNumber es)) := by
  intro old new
  have hrun := run_edited henv (edited_blocks hes hlines hlines' hfailure) levels w
  simp only [old, new, compile]
  revert hrun
  generalize run env levels source w = o
  generalize run env levels source' w = o'
  intro hrun
  have hverdict : o'.verdict source' = o.verdict source :=
    calc o'.verdict source'
      _ = o'.verdict source := by simp only [Outcome.verdict, hfailure]
      _ = (o'.map (.behind (.numbering id))).verdict source :=
        (Outcome.verdict_map (·.output_behind_numbering id) source o').symm
      _ = o.verdict source := by
        rw [← hrun, Outcome.verdict_map (·.output_behind_numbering (newNumber es))]
  have hworld := congrArg Outcome.world hrun
  rw [Outcome.world_map, Outcome.world_map] at hworld
  have houtput := congrArg World.output hworld
  rw [World.output_behind_numbering, World.output_behind_numbering] at houtput
  have hreport := congrArg (fun w => w.report.diagnostics) hworld
  simp only [World.behind, Lead.numbering, Array.empty_append, Diagnostic.renumber_id,
    Array.map_id] at hreport
  exact ⟨hverdict, houtput.symm, (congrArg World.store hworld).symm,
    (congrArg World.files hworld).symm, (congrArg World.random hworld).symm,
    (congrArg World.journal hworld).symm, hreport.symm⟩

/-- Edits of a loop with a fault in it: comment lines are put in and a blank line is taken out, and
comments are put behind the header and the end. -/
def loopEdits : List Edit :=
  [.insert "# a loop", .comment "for i = 1 2" " // \"twice\"", .remove "  ", .keep "circle i 50 2",
    .insert " /* none */", .keep "circle i", .comment "efor" " /* the end */"]

theorem compile_inert_loop :
    let source := Source.ofText "for i = 1 2\n  \ncircle i 50 2\ncircle i\nefor\n"
    let source' := Source.ofText
      "# a loop\nfor i = 1 2 // \"twice\"\ncircle i 50 2\n /* none */\ncircle i\nefor /* the end */"
    let old := compile bareEnvironment 1 source (bareWorld .empty)
    let new := compile bareEnvironment 1 source' (bareWorld .empty)
    new.1 = old.1 ∧ new.2.output = old.2.output ∧ new.2.store = old.2.store ∧
      new.2.files = old.2.files ∧ new.2.random = old.2.random ∧
      new.2.requests = old.2.requests ∧
      new.2.report.diagnostics =
        old.2.report.diagnostics.map (Diagnostic.renumber (newNumber loopEdits)) := by
  intro source source'
  have hes : Inert .script loopEdits := by
    refine .insert (by decide) (.inl rfl) ?_
    refine .comment (by decide) (by decide +kernel) (.inr (by decide +kernel))
      (.line " \"twice\"" (by decide)) ?_
    refine .remove (by decide +kernel) (by decide +kernel) (.keep ?_)
    refine .insert (by decide +kernel) (by decide +kernel) (.keep ?_)
    refine .comment (by decide +kernel) (by decide +kernel) (.inr (by decide +kernel))
      (.block " the end " (by decide) (by decide)) (.nil _)
  have hlines : source.lines.map SourceLine.text = loopEdits.filterMap Edit.before := by
    decide +kernel
  have hlines' : source'.lines.map SourceLine.text = loopEdits.filterMap Edit.after := by
    decide +kernel
  have henv : bareEnvironment.vocabulary.ReadsTokens := Vocabulary.readsTokens_standard
  exact compile_inert henv hes hlines hlines' rfl 1 (bareWorld .empty)

end DeckScript
