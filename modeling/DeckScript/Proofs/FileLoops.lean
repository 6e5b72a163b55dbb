import DeckScript.Proofs.FileNames
import DeckScript.Proofs.TokenSpacing
import DeckScript.Proofs.VariableNames

/-!
# Loops over files

The header of a loop has a test of its own for a quoted name, next to those for a list and for a
range. It takes the names that the other directives for files take, if they have at least two bytes,
and then the loop is over the lines of that file: those that are not blank, once each and in order.
A file that cannot be read is a fault of the header, and nothing of the body is carried out.

## Main definitions

* `fileLoopLine`, `dataLine`, `fillLine` — the headers of a loop and of a data block with a name
  between double quotes, and the line of a grid
* `lineRecords` — the records of a loop's body with a line of a file put in

## Main results

* `tokenize_fileLoopLine`, `tokenize_dataLine`, `tokenize_fillLine` — their tokens
* `header_fileLoop` — the header of a loop over the file
* `runBlock_fileLoop`, `runBlock_fileLoop_missing` — carrying out the loop
* `fileLoop_names_file` — the loop is over the file that the other directives open and write
-/

namespace DeckScript

open Lexeme Text

/-! ## Lines with a name between double quotes -/

/-- The header of a loop over the lines of a file. -/
def fileLoopLine (placeholder name : String) : String :=
  "for " ++ placeholder ++ " = " ++ quotedName name

/-- The header of a data block. -/
def dataLine (name : String) : String := "data " ++ quotedName name

/-- The line that fills a grid; `args` is what follows the name. -/
def fillLine (name args : String) : String := "grid " ++ quotedName name ++ " " ++ args

section Tokens

variable {name placeholder : String} (h : PlainName name)
include h

theorem tokenize_fileLoopLine (hv : IsIdentifier placeholder) :
    tokenize (fileLoopLine placeholder name) = ["for", placeholder, "=", quotedName name] := by
  have hlist : (fileLoopLine placeholder name).toList =
      "for".toList ++ ' ' :: (placeholder.toList ++ ' ' :: ('=' :: ' ' ::
        ((quotedName name).toList ++ []))) := by
    simp [fileLoopLine]
  have hfor : IsIdentifier "for" := isIdentifier_of_isLower rfl (by decide)
  rw [tokenize_eq_map_tokenChars, hlist, hfor.tokenChars_append,
    hv.tokenChars_append, tokenChars_equals, tokenChars_cons_of_isWhiteSpace (by decide),
    h.tokenChars_append, tokenChars_nil]
  simp

theorem tokenize_dataLine : tokenize (dataLine name) = ["data", quotedName name] := by
  have hlist : (dataLine name).toList =
      "data".toList ++ ' ' :: ((quotedName name).toList ++ []) := by
    simp [dataLine]
  have hdata : IsIdentifier "data" := isIdentifier_of_isLower rfl (by decide)
  rw [tokenize_eq_map_tokenChars, hlist, hdata.tokenChars_append,
    h.tokenChars_append, tokenChars_nil]
  simp

theorem tokenize_fillLine (args : String) :
    tokenize (fillLine name args) = "grid" :: quotedName name :: tokenize args := by
  have hlist : (fillLine name args).toList =
      "grid".toList ++ ' ' :: ((quotedName name).toList ++ ' ' :: args.toList) := by
    simp [fillLine]
  have hgrid : IsIdentifier "grid" := isIdentifier_of_isLower rfl (by decide)
  rw [tokenize_eq_map_tokenChars, hlist, hgrid.tokenChars_append,
    h.tokenChars_append, tokenChars_cons_of_isWhiteSpace (by decide),
    tokenize_eq_map_tokenChars args]
  simp

end Tokens

/-! ## What the lines ask for -/

section Names

variable {name placeholder : String} {store : Store} (hname : PlainName name)
  (hstore : store.get? (quotedName name) = none) (line : Nat)
include hname hstore

theorem target_dataLine :
    Data.target (SourceLine.record ⟨line, dataLine name⟩ store) = .ok name := by
  have htokens : (SourceLine.record ⟨line, dataLine name⟩ store).tokens =
      ["data", quotedName name] := by
    rw [SourceLine.tokens_record (l := ⟨line, dataLine name⟩) (tokenize_dataLine hname),
      List.map_singleton, Store.resolve_of_get?_eq_none hstore]
  have hlength : (SourceLine.record ⟨line, dataLine name⟩ store).length = 2 := by
    rw [Record.length, htokens]
    rfl
  rw [Data.target, if_pos hlength, Record.arg, htokens, fileName_eq_ok_iff]
  exact file?_quotedName hname.nonempty

/-- A grid asks for the file once its numbers are found good. -/
theorem ask_fillLine {args : String} {layout : Grid.Layout}
    (hlength : 5 ≤ (tokenize args).length) :
    let r := SourceLine.record ⟨line, fillLine name args⟩ store
    Directive.gridNumber store r 2 = .ok layout.x → Directive.gridNumber store r 3 = .ok layout.y →
    Directive.gridNumber store r 4 = .ok layout.xStep →
    Directive.gridNumber store r 5 = .ok layout.yStep →
    Directive.gridNumber store r 6 = .ok layout.limit →
    Directive.grid.ask store r = .ok (.fillGrid name layout) := by
  intro r hx hy hxStep hyStep hlimit
  have htokens : r.tokens = "grid" :: quotedName name :: (tokenize args).map store.resolve := by
    rw [SourceLine.tokens_record (l := ⟨line, fillLine name args⟩) (tokenize_fillLine hname args),
      List.map_cons, Store.resolve_of_get?_eq_none hstore]
  have hfile : fileName (r.arg 1) = .ok name := by
    rw [Record.arg, htokens, fileName_eq_ok_iff]
    exact file?_quotedName hname.nonempty
  have haccepts : Directive.grid.arity.accepts r.length = true := by
    rw [Record.length, htokens]
    simp [Directive.grid, Arity.atLeast, Arity.accepts, hlength]
  rw [Directive.ask, if_pos haccepts]
  simp only [Directive.grid, hx, hy, hxStep, hyStep, hlimit, hfile]
  rfl

/-- The header of a loop names its file between double quotes, if the name has at least two bytes
and the equals sign is no variable. -/
theorem header_fileLoop (hv : IsIdentifier placeholder) (hsize : 2 ≤ name.utf8ByteSize)
    (hequals : store.get? "=" = none) :
    Loop.Header.ofRecord (SourceLine.record ⟨line, fileLoopLine placeholder name⟩ store) =
      .ok ⟨store.resolve placeholder, .file name⟩ := by
  have htokens : (SourceLine.record ⟨line, fileLoopLine placeholder name⟩ store).tokens =
      ["for", store.resolve placeholder, "=", quotedName name] := by
    rw [SourceLine.tokens_record (l := ⟨line, fileLoopLine placeholder name⟩)
      (tokenize_fileLoopLine hname hv)]
    simp only [List.map_cons, List.map_nil, Store.resolve_of_get?_eq_none hstore,
      Store.resolve_of_get?_eq_none hequals]
  generalize SourceLine.record ⟨line, fileLoopLine placeholder name⟩ store = r at htokens
  have hlength : r.length = 4 := by rw [Record.length, htokens]; rfl
  have hplaceholder : r.arg 1 = store.resolve placeholder := by rw [Record.arg, htokens]; rfl
  have hsign : r.arg 2 = "=" := by rw [Record.arg, htokens]; rfl
  have htoken : r.arg 3 = quotedName name := by rw [Record.arg, htokens]; rfl
  -- A literal is no bracket, so the header is not that of a list.
  have hlist : quotedName name ≠ "[" := by
    intro h
    have hopens := opens_quotedName name
    rw [h] at hopens
    exact absurd hopens (by decide)
  have hquoted : 3 < (quotedName name).utf8ByteSize ∧ Literal.isEnclosed (quotedName name) := by
    rw [utf8ByteSize_quotedName, Literal.isEnclosed, opens_quotedName, closes_quotedName]
    exact ⟨by omega, rfl⟩
  have hsource : Loop.Source.ofRecord r = .ok (.file name) := by
    rw [Loop.Source.ofRecord, htoken, if_neg fun h => hlist h.1, if_pos ⟨hlength, hquoted⟩,
      file?_quotedName hname.nonempty]
  rw [Loop.Header.ofRecord, hlength, hsign, if_neg (by simp), hsource, hplaceholder]
  rfl

end Names

/-! ## Lines that are blank -/

/-- The text holds nothing but white space. -/
def IsBlank (text : String) : Prop := ∀ c ∈ text.toList, isWhiteSpace c

instance : DecidablePred IsBlank := fun text => List.decidableBAll _ text.toList

theorem trimChars_eq_nil_iff {s : List Char} : trimChars s = [] ↔ ∀ c ∈ s, isWhiteSpace c := by
  rw [trimChars, List.reverse_eq_nil_iff, List.dropWhile_eq_nil_iff]
  constructor
  · intro h
    rw [← List.dropWhile_eq_nil_iff]
    -- The first character that is left over in front would be no white space.
    by_contra hne
    have hhead := List.head_dropWhile_not isWhiteSpace hne
    rw [h _ (List.mem_reverse.2 (List.head_mem hne))] at hhead
    cases hhead
  · intro h c hc
    exact h c ((List.dropWhile_sublist _).subset (List.mem_reverse.1 hc))

theorem isEmpty_trim_iff {text : String} : (trim text).isEmpty ↔ IsBlank text := by
  rw [String.isEmpty_iff, trim, ← String.toList_eq_nil_iff, String.toList_ofList,
    trimChars_eq_nil_iff]
  rfl

/-! ## Carrying out the loop -/

/-- The records of a loop's body with a line of a file put in. -/
def lineRecords (body : List SourceLine) (store : Store) (placeholder text : String) :
    List Record :=
  body.map fun l => (l.record store).bind placeholder (Literal.requote text)

section Loops

variable {φ : Type} [FileStore φ] {exec : Record → Step φ} {header : SourceLine}
  {body : List SourceLine} {w : World φ} {placeholder name : String}
  (hheader : Loop.Header.ofRecord (header.record w.store) = .ok ⟨placeholder, .file name⟩)
include hheader

/-- The body is carried out for the lines of the file that are not blank, once for each and in
order. -/
theorem runBlock_fileLoop {contents : String} (hread : FileStore.read w.files name = .ok contents) :
    runBlock exec (.loop header body) w =
      runRecords exec
        (((lines contents).filter fun text => ¬ IsBlank text).flatMap
          (lineRecords body w.store placeholder))
        (w.note (.opened name)) := by
  have hvalues : fileValues contents =
      ((lines contents).filter fun text => ¬ IsBlank text).map Literal.requote := by
    rw [fileValues]
    refine congrArg (List.map Literal.requote) (List.filter_congr fun text _ => ?_)
    have hblank : (trim text).isEmpty = decide (IsBlank text) := by
      rw [Bool.eq_iff_iff, isEmpty_trim_iff, decide_eq_true_eq]
    rw [decide_not, hblank]
  have hrecords : loopRecords header body w = (w.note (.opened name),
      .ok (((lines contents).filter fun text => ¬ IsBlank text).flatMap
        (lineRecords body w.store placeholder))) := by
    simp only [loopRecords, hheader, Loop.Source.values, World.open?, hread, hvalues,
      List.flatMap_map, List.map_map]
    rfl
  rw [runBlock, runLoop_eq, hrecords, Attempt.settle_outcome]

/-- A file that cannot be read is a fault of the header, and the body is not carried out. -/
theorem runBlock_fileLoop_missing {reason : String}
    (hread : FileStore.read w.files name = .error reason) :
    runBlock exec (.loop header body) w =
      .finished ((w.note (.opened name)).blame header.number (.file name reason)) := by
  have hrecords : loopRecords header body w =
      (w.note (.opened name), .error (.file name reason)) := by
    simp only [loopRecords, hheader, Loop.Source.values, World.open?, hread]
  rw [runBlock, runLoop_eq, hrecords, Attempt.settle_fault]

end Loops

/-! ## Loops and the other directives -/

/-- Let a name have at least two bytes and nothing that needs an escape between double quotes, and
let neither its token nor the equals sign be a variable. Then the header of a loop is one over the
file that the other directives open and write under that name. If the file can be read, the body is
carried out for its lines that are not blank, once for each and in order; if not, that is a resource
fault of the header's line, one diagnostic is all that is added to the report, and whatever the body
is, nothing of it is carried out. -/
theorem fileLoop_names_file {φ : Type} [FileStore φ] {name placeholder : String}
    (hname : PlainName name) (hsize : 2 ≤ name.utf8ByteSize) (hv : IsIdentifier placeholder)
    {w : World φ} (hstore : w.store.get? (quotedName name) = none)
    (hequals : w.store.get? "=" = none) (line : Nat) :
    let header : SourceLine := ⟨line, fileLoopLine placeholder name⟩
    let source := Loop.Header.ofRecord (header.record w.store)
    source = .ok ⟨w.store.resolve placeholder, .file name⟩ ∧
      Directive.inclusion.ask w.store (SourceLine.record ⟨line, includeLine name⟩ w.store) =
        .ok (.enter name) ∧
      Data.target (SourceLine.record ⟨line, dataLine name⟩ w.store) = .ok name ∧
      (∀ (args : String) (layout : Grid.Layout), 5 ≤ (tokenize args).length →
        let r := SourceLine.record ⟨line, fillLine name args⟩ w.store
        Directive.gridNumber w.store r 2 = .ok layout.x →
        Directive.gridNumber w.store r 3 = .ok layout.y →
        Directive.gridNumber w.store r 4 = .ok layout.xStep →
        Directive.gridNumber w.store r 5 = .ok layout.yStep →
        Directive.gridNumber w.store r 6 = .ok layout.limit →
        Directive.grid.ask w.store r = .ok (.fillGrid name layout)) ∧
      ∀ (exec : Record → Step φ) (body : List SourceLine),
        (∀ contents, FileStore.read w.files name = .ok contents →
          runBlock exec (.loop header body) w =
            runRecords exec
              (((lines contents).filter fun text => ¬ IsBlank text).flatMap
                (lineRecords body w.store (w.store.resolve placeholder)))
              (w.note (.opened name))) ∧
        ∀ reason, FileStore.read w.files name = .error reason →
          (Fault.file name reason).kind = .resource ∧
          ∃ v, runBlock exec (.loop header body) w = .finished v ∧
            v = (w.note (.opened name)).blame line (.file name reason) ∧
            v.report.toList =
              w.report.toList ++ [⟨line, w.includes.head?, .file name reason⟩] := by
  intro header source
  have hheader : source = .ok ⟨w.store.resolve placeholder, .file name⟩ :=
    header_fileLoop hname hstore line hv hsize hequals
  refine ⟨hheader, ask_includeLine hname hstore line, target_dataLine hname hstore line, ?_, ?_⟩
  · intro args layout hlength
    exact ask_fillLine hname hstore line hlength
  · intro exec body
    refine ⟨fun contents hread => runBlock_fileLoop hheader hread, fun reason hread => ⟨rfl, ?_⟩⟩
    exact ⟨_, runBlock_fileLoop_missing hheader hread, rfl, Report.toList_push _ _⟩

theorem fileLoop_names_file_rows :
    let w : World MemoryFiles :=
      { bareWorld .empty with files := MemoryFiles.empty.write "rows" "a\n \nb\n" }
    let header : SourceLine := ⟨3, fileLoopLine "v" "rows"⟩
    let cell := SourceLine.record ⟨3, fillLine "rows" "0 5 1 1 2"⟩ .empty
    PlainName "rows" ∧ 2 ≤ "rows".utf8ByteSize ∧ IsIdentifier "v" ∧
      w.store.get? (quotedName "rows") = none ∧ w.store.get? "=" = none ∧
      Loop.Header.ofRecord (header.record w.store) = .ok ⟨"v", .file "rows"⟩ ∧
      Directive.grid.ask .empty cell = .ok (.fillGrid "rows" ⟨0, 5, 1, 1, 2⟩) ∧
      runBlock (dispatch bareEnvironment 1) (.loop header [⟨4, "li v"⟩]) w =
        runRecords (dispatch bareEnvironment 1)
          [⟨4, ["li", "\"a\""], "li \"a\""⟩, ⟨4, ["li", "\"b\""], "li \"b\""⟩]
          (w.note (.opened "rows")) ∧
      ∃ v, runBlock (dispatch bareEnvironment 1) (.loop header [⟨4, "li v"⟩]) (bareWorld .empty) =
          .finished v ∧
        v.report.toList = [⟨3, none, .file "rows" "open rows: no such file"⟩] := by
  intro w header cell
  have hname : PlainName "rows" := ⟨by decide, by decide, by decide, by decide⟩
  have hsize : 2 ≤ "rows".utf8ByteSize := by decide
  obtain ⟨hheader, -, -, hgrid, hloop⟩ :=
    fileLoop_names_file hname hsize isIdentifier_v (w := w) rfl rfl 3
  obtain ⟨-, -, -, -, hmissing⟩ :=
    fileLoop_names_file hname hsize isIdentifier_v (w := bareWorld .empty) rfl rfl 3
  have hcell := hgrid "0 5 1 1 2" ⟨0, 5, 1, 1, 2⟩ (by decide +kernel) (by decide +kernel)
    (by decide +kernel) (by decide +kernel) (by decide +kernel) (by decide +kernel)
  have hrows := (hloop (dispatch bareEnvironment 1) [⟨4, "li v"⟩]).1 "a\n \nb\n" rfl
  have hrecords : ((lines "a\n \nb\n").filter fun text => ¬ IsBlank text).flatMap
      (lineRecords [⟨4, "li v"⟩] w.store (w.store.resolve "v")) =
        [⟨4, ["li", "\"a\""], "li \"a\""⟩, ⟨4, ["li", "\"b\""], "li \"b\""⟩] := by
    decide +kernel
  rw [hrecords] at hrows
  obtain ⟨-, v, hfinished, -, hreport⟩ :=
    (hmissing (dispatch bareEnvironment 1) [⟨4, "li v"⟩]).2 "open rows: no such file" rfl
  exact ⟨hname, hsize, isIdentifier_v, rfl, rfl, hheader, hcell, hrows, v, hfinished, hreport⟩

/-- A name of one byte is taken by the other directives and not by a loop. A header is refused as
well if its equals sign is a variable. -/
theorem fileLoop_refuses_short_name :
    let w : World MemoryFiles :=
      { bareWorld .empty with files := MemoryFiles.empty.write "n" "a\nb\n" }
    PlainName "n" ∧ IsIdentifier "v" ∧ w.store.get? (quotedName "n") = none ∧
      Directive.inclusion.ask .empty (SourceLine.record ⟨1, includeLine "n"⟩ .empty) =
        .ok (.enter "n") ∧
      Data.target (SourceLine.record ⟨1, dataLine "n"⟩ .empty) = .ok "n" ∧
      Loop.Header.ofRecord (SourceLine.record ⟨1, fileLoopLine "v" "n"⟩ .empty) =
        .error (.loopHeader ["for", "v", "=", "\"n\""]) ∧
      (runBlock (dispatch bareEnvironment 1)
        (.loop ⟨1, fileLoopLine "v" "n"⟩ [⟨2, "li v"⟩]) w).world.report.toList =
          [⟨1, none, .loopHeader ["for", "v", "=", "\"n\""]⟩] ∧
      Loop.Header.ofRecord
          (SourceLine.record ⟨1, fileLoopLine "v" "ab"⟩ (Table.empty.insert "=" "5")) =
        .error (.loopHeader ["for", "v", "5", "\"ab\""]) := by
  intro w
  have hname : PlainName "n" := ⟨by decide, by decide, by decide, by decide⟩
  refine ⟨hname, isIdentifier_v, rfl, ask_includeLine hname rfl 1, target_dataLine hname rfl 1, ?_⟩
  decide +kernel

end DeckScript
