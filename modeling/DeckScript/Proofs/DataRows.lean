import DeckScript.Proofs.BoundWords
import DeckScript.Proofs.ElementLines
import DeckScript.Proofs.EmptyLines

/-!
# The rows of data blocks

A data block reaches from its header to the first line whose text without the white space around it
is the closing word, or to the end of the script. The lines in between are its rows, whatever they
are; they belong to no other block. The file that the rows make has a line for each row with exactly
two words. Words hold no white space, so a line of the file is cut at its tab into the same words.

## Main definitions

* `SourceLine.IsRow` — a line that does not close a data block
* `Data.words` — the words of the rows that have exactly two
* `Data.decode` — the lines of a text, each cut at its tabs

## Main results

* `Data.contents_eq`, `Data.decode_contents` — the file that rows make, and reading it again
* `Block.data_step` — what a line does to a data block
* `Source.exists_rows` — the lines of a data block in its script
-/

namespace DeckScript

open Text

/-! ## The file that rows make -/

namespace Data

/-- The words of each row that has exactly two. -/
def words (rows : List SourceLine) : List (List String) :=
  (rows.map fun l => fields l.text).filter fun words => words.length = 2

/-- The lines of a text, each cut at its tabs. -/
def decode (contents : String) : List (List String) :=
  (lines contents).map fun line => (line.toList.splitOn '\t').map String.ofList

theorem row?_of_fields {text : String} {ws : List String} (h : fields text = ws) :
    row? text =
      if ws.length = 2 then some ("\t".intercalate ws ++ "\n") else none := by
  subst h
  rw [row?]
  split
  · rename_i label value heq
    rw [heq]
    rfl
  · rename_i hne
    rw [if_neg]
    intro hlength
    obtain ⟨label, value, heq⟩ := List.length_eq_two.1 hlength
    exact hne label value heq

/-- The file has one line for each row with two words: the words with a tab between them. -/
theorem contents_eq (rows : List SourceLine) :
    contents rows = linesText ((words rows).map ("\t".intercalate ·)) := by
  rw [contents, linesText, words, List.map_map, List.filter_map, List.map_map]
  congr 1
  induction rows with
  | nil => rfl
  | cons l rest ih =>
    rw [List.filterMap_cons, row?_of_fields rfl, List.filter_cons]
    by_cases hlength : (fields l.text).length = 2
    · simp [hlength, ih]
    · simp [hlength, ih]

theorem isUnbroken_of_mem_words {rows : List SourceLine} {ws : List String} (h : ws ∈ words rows) :
    ws.length = 2 ∧ ∀ word ∈ ws, word ≠ "" ∧ IsUnbroken word := by
  obtain ⟨hmem, hlength⟩ := List.mem_filter.1 h
  obtain ⟨l, -, rfl⟩ := List.mem_map.1 hmem
  refine ⟨of_decide_eq_true hlength, fun word hword => ?_⟩
  obtain ⟨chars, hchars, rfl⟩ := List.mem_map.1 hword
  obtain ⟨hne, hall⟩ := isWhiteSpace_eq_false_of_mem_fieldChars hchars
  rw [IsUnbroken, String.toList_ofList]
  exact ⟨by simpa using hne, hall⟩

/-- A line of the file is one line, and it is cut at its tab into the words that it was made of. -/
theorem splitOn_intercalate {ws : List String} (hne : ws ≠ [])
    (h : ∀ word ∈ ws, word ≠ "" ∧ IsUnbroken word) :
    (("\t".intercalate ws).toList.splitOn '\t').map String.ofList = ws := by
  have htab : ∀ cs ∈ ws.map String.toList, '\t' ∉ cs := by
    rw [List.forall_mem_map]
    intro word hword hmem
    exact absurd ((h word hword).2 '\t' hmem) (by decide)
  rw [String.toList_intercalate]
  change ((List.intercalate ['\t'] (ws.map String.toList)).splitOn '\t').map String.ofList = ws
  rw [List.splitOn_intercalate '\t' htab (by simpa using hne), List.map_map]
  simp

/-- A line of the file has neither a break nor a return at its end. -/
theorem proper_intercalate {ws : List String} (hlength : ws.length = 2)
    (h : ∀ word ∈ ws, word ≠ "" ∧ IsUnbroken word) :
    '\n' ∉ ("\t".intercalate ws).toList ∧ ("\t".intercalate ws).toList.getLast? ≠ some '\r' := by
  obtain ⟨label, value, rfl⟩ := List.length_eq_two.1 hlength
  rw [List.forall_mem_cons, List.forall_mem_singleton] at h
  obtain ⟨⟨-, hlabel⟩, hne, hvalue⟩ := h
  have hchars : ("\t".intercalate [label, value]).toList =
      label.toList ++ '\t' :: value.toList := by
    change (label ++ "\t" ++ value).toList = _
    simp
  have hvoid {word : String} (hword : IsUnbroken word) {c : Char} (hc : isWhiteSpace c) :
      c ∉ word.toList := by
    intro hmem
    rw [hword c hmem] at hc
    cases hc
  rw [hchars]
  constructor
  · rw [List.mem_append, List.mem_cons, not_or, not_or]
    exact ⟨hvoid hlabel (by decide), by decide, hvoid hvalue (by decide)⟩
  · -- The second word is not empty, so the line ends with one of its characters.
    intro hlast
    rw [List.getLast?_append, List.getLast?_cons] at hlast
    cases hvaluelast : value.toList.getLast? with
    | none => exact hne (String.toList_eq_nil_iff.1 (List.getLast?_eq_none_iff.1 hvaluelast))
    | some c =>
      rw [hvaluelast] at hlast
      obtain rfl : c = '\r' := Option.some.inj hlast
      exact hvoid hvalue (by decide) (List.mem_of_getLast? hvaluelast)

/-- Lines without breaks that do not end with a return are the lines of their text. -/
theorem lines_linesText {ls : List String}
    (h : ∀ l ∈ ls, '\n' ∉ l.toList ∧ l.toList.getLast? ≠ some '\r') :
    lines (linesText ls) = ls := by
  induction ls with
  | nil => exact congrArg (List.map String.ofList) (allLines_of_notMem List.not_mem_nil)
  | cons l rest ih =>
    obtain ⟨⟨hbreak, hreturn⟩, hrest⟩ := List.forall_mem_cons.1 h
    have hfirst : lines (l ++ "\n") = [l] := by
      rw [lines, String.toList_append]
      change (allLines '\n' '\r' (l.toList ++ ['\n'])).map String.ofList = [l]
      rw [allLines_line hbreak hreturn]
      simp
    have htext : linesText (l :: rest) = (l ++ "\n") ++ linesText rest :=
      linesText_append [l] rest
    rw [htext, lines_append (.inr ⟨l, rfl⟩), hfirst, ih hrest]
    rfl

/-- Reading the file again gives the words of the rows that have two, and nothing else. -/
theorem decode_contents (rows : List SourceLine) : decode (contents rows) = words rows := by
  have hproper : ∀ l ∈ (words rows).map ("\t".intercalate ·),
      '\n' ∉ l.toList ∧ l.toList.getLast? ≠ some '\r' := by
    rw [List.forall_mem_map]
    intro ws hws
    obtain ⟨hlength, hwords⟩ := isUnbroken_of_mem_words hws
    exact proper_intercalate hlength hwords
  rw [decode, contents_eq, lines_linesText hproper, List.map_map]
  conv_rhs => rw [← List.map_id (words rows)]
  refine List.map_congr_left fun ws hws => ?_
  obtain ⟨hlength, hwords⟩ := isUnbroken_of_mem_words hws
  exact splitOn_intercalate (List.ne_nil_of_length_eq_add_one hlength) hwords

example : decode (contents [⟨2, "# a"⟩, ⟨3, "\tb  1 "⟩, ⟨4, "c"⟩, ⟨5, "d 2 3"⟩]) =
    [["#", "a"], ["b", "1"]] := by decide +kernel

end Data

/-! ## The rows of a block in its script -/

/-- The line does not close a data block. -/
def SourceLine.IsRow (l : SourceLine) : Prop := trim l.text ≠ "edata"

instance : DecidablePred SourceLine.IsRow := fun l =>
  inferInstanceAs (Decidable (trim l.text ≠ "edata"))

theorem SourceLine.isRow_of_mem_takeWhile {l : SourceLine} {ls : List SourceLine}
    (h : l ∈ ls.takeWhile (·.IsRow)) : l.IsRow := by
  simpa using List.mem_takeWhile_imp h

namespace Block

/-- What a line does to a data block: it closes the block that is open, or it is one of its rows, or
it opens a block. -/
theorem data_step {state next : Option OpenBlock} {done : Option Block} {l : SourceLine}
    (h : step state l = (next, done)) :
    (∀ header rows, done = some (.data header rows) →
      ∃ rs, state = some (.data header rs) ∧ rows = rs.reverse ∧ ¬ l.IsRow) ∧
    ∀ header rs, next = some (.data header rs) →
      (∃ before, state = some (.data header before) ∧ rs = l :: before ∧ l.IsRow) ∨
        state = none ∧ l = header ∧ rs = [] ∧ l.keyword? = some "data" := by
  cases state with
  | none =>
    rw [step] at h
    split at h
    · obtain ⟨rfl, rfl⟩ := Prod.mk.inj h
      simp
    · rename_i keyword hkeyword
      split_ifs at h with hfor hdata <;> obtain ⟨rfl, rfl⟩ := Prod.mk.inj h
      · simp
      · simp [hkeyword, hdata, eq_comm]
      · simp
  | some b =>
    cases b with
    | loop header body =>
      rw [step] at h
      split at h
      · obtain ⟨rfl, rfl⟩ := Prod.mk.inj h
        simp
      · split_ifs at h <;> obtain ⟨rfl, rfl⟩ := Prod.mk.inj h <;> simp [OpenBlock.close]
    | data header rows =>
      rw [step] at h
      split_ifs at h with hcloses <;> obtain ⟨rfl, rfl⟩ := Prod.mk.inj h
      · simp [OpenBlock.close, SourceLine.IsRow, hcloses, eq_comm]
      · simp [SourceLine.IsRow, hcloses, eq_comm]

/-- A data block that lines complete was open in front of them, or one of them is its header. Its
further rows are the lines up to the first one that is no row. -/
theorem exists_rows_of_mem_split {state : Option OpenBlock} {ls : List SourceLine}
    {header : SourceLine} {rows : List SourceLine} (h : .data header rows ∈ (split state ls).1) :
    (∃ rs, state = some (.data header rs) ∧
      rows = rs.reverse ++ ls.takeWhile (·.IsRow) ∧ ls.takeWhile (·.IsRow) ≠ ls) ∨
    ∃ before tail, ls = before ++ header :: tail ∧ (split state before).2 = none ∧
      header.keyword? = some "data" ∧ rows = tail.takeWhile (·.IsRow) ∧ rows ≠ tail := by
  induction ls generalizing state with
  | nil => cases h
  | cons l rest ih =>
    rcases hstep : step state l with ⟨next, done⟩
    obtain ⟨hdone, hnext⟩ := data_step hstep
    rw [split_cons_of_step hstep, List.mem_append, Option.mem_toList] at h
    -- The line completes the block, or it is a row of it, or the block begins here or further down.
    rcases h with h | h
    · obtain ⟨rs, hstate, hrows, hclosing⟩ := hdone header rows h
      refine .inl ⟨rs, hstate, ?_⟩
      rw [List.takeWhile_cons_of_neg (by simpa using hclosing), List.append_nil]
      exact ⟨hrows, (List.cons_ne_nil l rest).symm⟩
    · rcases ih h with ⟨rs, hopen, hrows, hmore⟩ | ⟨before, tail, hlines, hclosed, hrest⟩
      · rcases hnext header rs hopen with ⟨earlier, hstate, rfl, hrow⟩ |
          ⟨hstate, rfl, rfl, hkeyword⟩
        · refine .inl ⟨earlier, hstate, ?_⟩
          rw [List.takeWhile_cons_of_pos (by simpa using hrow)]
          exact ⟨by simpa using hrows, by simpa using hmore⟩
        · rw [List.reverse_nil, List.nil_append] at hrows
          exact .inr ⟨[], rest, rfl, hstate, hkeyword, hrows, hrows ▸ hmore⟩
      · refine .inr ⟨l :: before, tail, by rw [hlines]; rfl, ?_, hrest⟩
        rwa [split_cons_of_step hstep]

/-- A data block that lines leave open was open in front of them, or one of them is its header. All
lines from there on are its rows. -/
theorem exists_rows_of_open {state : Option OpenBlock} {ls : List SourceLine}
    {header : SourceLine} {rs : List SourceLine} (h : (split state ls).2 = some (.data header rs)) :
    (∃ earlier, state = some (.data header earlier) ∧ rs.reverse = earlier.reverse ++ ls ∧
      ∀ l ∈ ls, l.IsRow) ∨
    ∃ before tail, ls = before ++ header :: tail ∧ (split state before).2 = none ∧
      header.keyword? = some "data" ∧ rs.reverse = tail ∧ ∀ l ∈ tail, l.IsRow := by
  induction ls generalizing state with
  | nil => exact .inl ⟨rs, h, by simp⟩
  | cons l rest ih =>
    rcases hstep : step state l with ⟨next, done⟩
    obtain ⟨-, hnext⟩ := data_step hstep
    rw [split_cons_of_step hstep] at h
    rcases ih h with ⟨rs', hopen, hrows, hall⟩ | ⟨before, tail, hlines, hclosed, hrest⟩
    · rcases hnext header rs' hopen with ⟨earlier, hstate, rfl, hrow⟩ |
        ⟨hstate, rfl, rfl, hkeyword⟩
      · refine .inl ⟨earlier, hstate, by simpa using hrows, ?_⟩
        exact List.forall_mem_cons.2 ⟨hrow, hall⟩
      · exact .inr ⟨[], rest, rfl, hstate, hkeyword, hrows, hall⟩
    · refine .inr ⟨l :: before, tail, by rw [hlines]; rfl, ?_, hrest⟩
      rwa [split_cons_of_step hstep]

/-- Rows are read into the data block that is open. -/
theorem split_rows {ls : List SourceLine} (h : ∀ l ∈ ls, l.IsRow) (header : SourceLine)
    (rs : List SourceLine) :
    split (some (.data header rs)) ls = ([], some (.data header (ls.reverse ++ rs))) := by
  induction ls generalizing rs with
  | nil => rfl
  | cons l rest ih =>
    obtain ⟨hrow, hrest⟩ := List.forall_mem_cons.1 h
    have hstep : step (some (.data header rs)) l = (some (.data header (l :: rs)), none) := by
      rw [step, if_neg hrow]
    rw [split_cons_of_step hstep, ih hrest]
    simp

end Block

namespace Source

/-- The rows of a data block are the lines behind its header up to the first one that closes it. If
none does, the script ends with the rows. A script that breaks off does not end. -/
theorem exists_rows {source : Source} {header : SourceLine} {rows : List SourceLine}
    (h : .data header rows ∈ source.blocks) :
    ∃ before tail, source.lines = before ++ header :: tail ∧
      (Block.split none before).2 = none ∧ header.keyword? = some "data" ∧
      rows = tail.takeWhile (·.IsRow) ∧ (source.failure = none ∨ rows ≠ tail) := by
  have hcompleted (h : .data header rows ∈ (Block.split none source.lines).1) :
      ∃ before tail, source.lines = before ++ header :: tail ∧
        (Block.split none before).2 = none ∧ header.keyword? = some "data" ∧
        rows = tail.takeWhile (·.IsRow) ∧ (source.failure = none ∨ rows ≠ tail) := by
    rcases Block.exists_rows_of_mem_split h with ⟨rs, hopen, -⟩ |
      ⟨before, tail, hlines, hclosed, hkeyword, hrows, hmore⟩
    · cases hopen
    · exact ⟨before, tail, hlines, hclosed, hkeyword, hrows, .inr hmore⟩
  rw [blocks] at h
  cases hfailure : source.failure with
  | some reason =>
    rw [hfailure] at h hcompleted
    exact hcompleted h
  | none =>
    rw [hfailure] at h hcompleted
    rcases List.mem_append.1 h with h | h
    · exact hcompleted h
    · -- The block is still open at the end of the script, and is closed there.
      rw [Option.mem_toList] at h
      obtain ⟨b, hopen, hclose⟩ := Option.map_eq_some_iff.1 h
      cases b with
      | loop _ _ => cases hclose
      | data header' rs =>
        cases hclose
        rcases Block.exists_rows_of_open hopen with ⟨_, hnone, -⟩ |
          ⟨before, tail, hlines, hclosed, hkeyword, hrows, hall⟩
        · cases hnone
        · refine ⟨before, tail, hlines, hclosed, hkeyword, ?_, .inl rfl⟩
          rw [hrows, List.takeWhile_eq_self_iff.2 (by simpa using hall)]

end Source

end DeckScript
