import DeckScript.Proofs.ElementLines
import DeckScript.Proofs.LiteralPaths

/-!
# Lines of files as texts

A loop over a file puts each line of it that is not blank between double quotes, and an item in its
body takes the quotes off again. So the item shows the line as it is, with all of its blanks and
quotes. Only a line that begins and ends with a double quote is taken for one that has its quotes
already, and is shown without them. If the line is one literal, that is what it stands for. But the
two quotes may as well belong to different literals on the line, and then they are lost.

## Main definitions

* `IsQuotedLine` — a line that is one literal between double quotes
* `itemLine` — the line of markup that an item adds for a line of a file

## Main results

* `shown_requote_quotedName`, `shown_requote_of_ne` — what an item shows for a line
* `runBlock_itemLoop` — the loop adds one item for each line
* `fileLoop_shows_lines` — what is written, and for which lines it is faithful
-/

namespace DeckScript

open Markup Lexeme Text

/-! ## What an item shows for a line -/

/-- The line is one literal between double quotes, with the given inside. -/
def IsQuotedLine (line inside : String) : Prop :=
  line = quotedName inside ∧ IsEscaped '"' inside.toList

theorem isEnclosed_iff {line : String} :
    2 ≤ line.utf8ByteSize ∧ Literal.isEnclosed line ↔ ∃ inside, line = quotedName inside := by
  rw [Literal.isEnclosed, Bool.and_eq_true]
  constructor
  · rintro ⟨hsize, hopens, hcloses⟩
    exact exists_quotedName hsize hopens hcloses
  · rintro ⟨inside, rfl⟩
    rw [utf8ByteSize_quotedName]
    exact ⟨by omega, opens_quotedName inside, closes_quotedName inside⟩

/-- Of a line that begins and ends with a double quote an item shows what is between the two. -/
theorem shown_requote_quotedName (inside : String) :
    shown (Literal.requote (quotedName inside)) = escape inside := by
  rw [shown_requote, if_pos (isEnclosed_iff.2 ⟨inside, rfl⟩), inner_quotedName]

/-- Of any other line an item shows all of it. -/
theorem shown_requote_of_ne {line : String} (h : ∀ inside, line ≠ quotedName inside) :
    shown (Literal.requote line) = escape line := by
  rw [shown_requote, if_neg]
  intro henclosed
  obtain ⟨inside, hline⟩ := isEnclosed_iff.1 henclosed
  exact h inside hline

theorem ne_quotedName (inside : String) : inside ≠ quotedName inside := by
  intro h
  have hsize := congrArg String.utf8ByteSize h
  rw [utf8ByteSize_quotedName] at hsize
  omega

/-- An item shows a line as it is if and only if the line does not begin and end with a double
quote. -/
theorem shown_requote_eq_iff {line : String} :
    shown (Literal.requote line) = escape line ↔ ∀ inside, line ≠ quotedName inside := by
  constructor
  · rintro hwhole inside rfl
    rw [shown_requote_quotedName, escape_injective.eq_iff] at hwhole
    exact ne_quotedName inside hwhole
  · exact shown_requote_of_ne

/-! ## Items -/

/-- The line of markup that an item adds for a line of a file. -/
def itemLine (line : String) : String := "<li>" ++ shown (Literal.requote line) ++ "</li>"

variable {φ : Type}

/-- Add a line of markup for a record. -/
def drawItem (env : Environment) (line : String) (r : Record) : Step φ := fun w =>
  (announce env r w).write (itemLine line ++ "\n").toUTF8

section Items

variable [FileStore φ] {env : Environment}

omit [FileStore φ] in
theorem line_item (content : String) :
    Element.line (.tag "li" [] none (.content content)) = "<li>" ++ content ++ "</li>" ++ "\n" := by
  rw [Element.line, Element.text, Ending.text, appendClause, attributesText, ← String.toList_inj]
  simp

theorem dispatch_item (hstandard : env.vocabulary = .standard) {r : Record} {line : String}
    (hr : r.tokens = ["li", Literal.requote line]) (n : Nat) (w : World φ) :
    dispatch env (n + 1) r w = drawItem env line r w := by
  have hkeyword : r.keyword = "li" := by rw [Record.keyword, Record.arg, hr]; rfl
  have hargs : r.argsFrom 1 = [Literal.requote line] := by rw [Record.argsFrom, hr]; rfl
  have hask (store : Store) : Directive.listItem.ask store r =
      .ok (.emit [.tag "li" [] none (.content (shown (Literal.requote line)))]) := by
    have haccepts : Directive.listItem.arity.accepts r.length = true := rfl
    rw [Directive.ask, if_pos haccepts]
    simp only [Directive.listItem, Directive.element, hargs]
    rfl
  have hget : Vocabulary.standard.get? "li" = some Directive.listItem := rfl
  rw [dispatch_succ, execute, hstandard, hkeyword, hget]
  simp only [hask]
  rw [fulfil, Attempt.settle_outcome, World.emit, List.map_singleton, line_item, String.join_cons,
    String.join_nil, String.append_empty]
  rfl

/-- The loop adds one item for each line of the file that is not blank, in order. -/
theorem runBlock_itemLoop (hstandard : env.vocabulary = .standard) {name v : String}
    {header l : SourceLine} {w : World φ}
    (hheader : Loop.Header.ofRecord (header.record w.store) = .ok ⟨v, .file name⟩)
    (hl : tokenize l.text = ["li", v]) (hv : w.store.get? v = none) (hne : v ≠ "li")
    {contents : String} (hread : FileStore.read w.files name = .ok contents) (n : Nat) :
    runBlock (dispatch env (n + 1)) (.loop header [l]) w =
      runSteps (((lines contents).filter fun line => ¬ IsBlank line).map fun line =>
        drawItem env line ((l.record w.store).bind v (Literal.requote line)))
        (w.note (.opened name)) := by
  have hstep (line : String) :
      dispatch env (n + 1) ((l.record w.store).bind v (Literal.requote line)) =
        (drawItem env line ((l.record w.store).bind v (Literal.requote line)) : Step φ) :=
    funext fun u => dispatch_item hstandard (tokens_bind_variable hl hv hne _) n u
  rw [runBlock_fileLoop hheader hread, runRecords_eq_runSteps, List.map_flatMap]
  simp only [lineRecords, List.map_cons, List.map_nil, hstep, ← List.map_eq_flatMap]

omit [FileStore φ] in
variable (env) in
/-- An output without a limit takes all items. -/
theorem exists_runSteps_drawItem (rs : String → Record) (ls : List String) {w : World φ}
    (hroom : w.output.room = none) :
    ∃ v, runSteps (ls.map fun line => drawItem env line (rs line)) w = .finished v ∧
      v.output.bytes = w.output.bytes ++ (linesText (ls.map itemLine)).toUTF8 := by
  induction ls generalizing w with
  | nil => exact ⟨w, rfl, by simp [linesText]⟩
  | cons line rest ih =>
    have hout : (announce env (rs line) w).output = w.output := by
      obtain ⟨events, hasked⟩ := w.onlyAsked_announce env (rs line)
      rw [hasked]
    -- The item is all that the first record adds, and leaves an output without a limit.
    let output := { w.output with bytes := w.output.bytes ++ (itemLine line ++ "\n").toUTF8 }
    have hwrite : drawItem env line (rs line) w =
        .finished { announce env (rs line) w with output } := by
      simp only [drawItem, World.write, hout, Output.write, hroom, output]
    rw [List.map_cons, runSteps_cons, hwrite, Outcome.finished_andThen]
    obtain ⟨v, hrun, hbytes⟩ := ih (w := { announce env (rs line) w with output }) hroom
    refine ⟨v, hrun, ?_⟩
    rw [hbytes, ByteArray.append_assoc]
    simp [linesText]

end Items

/-! ## Loops over the lines of a file -/

/-- Let a file of at least two bytes' name be read by the header of a loop, with neither its token
nor the equals sign nor the variable assigned, and let the body be an item with the variable. The
loop adds one item for each line of the file that is not blank, in order. The item of a line that is
one literal between double quotes shows the inside of the literal. The item of another line shows
all of the line if and only if the line does not begin and end with a double quote; if it does, the
two quotes are missing. -/
theorem fileLoop_shows_lines [FileStore φ] {env : Environment}
    (hstandard : env.vocabulary = .standard) {name v : String} (hname : PlainName name)
    (hsize : 2 ≤ name.utf8ByteSize) (hv : IsIdentifier v) (hne : v ≠ "li") {w : World φ}
    (hstore : ∀ token ∈ [quotedName name, "=", v], w.store.get? token = none) {l : SourceLine}
    (hl : tokenize l.text = ["li", v]) {contents : String}
    (hread : FileStore.read w.files name = .ok contents) (line n : Nat) :
    let texts := (lines contents).filter fun text => ¬ IsBlank text
    let loop := Block.loop ⟨line, fileLoopLine v name⟩ [l]
    runBlock (dispatch env (n + 1)) loop w =
        runSteps (texts.map fun text =>
          drawItem env text ((l.record w.store).bind v (Literal.requote text)))
          (w.note (.opened name)) ∧
      (w.output.room = none → ∃ u, runBlock (dispatch env (n + 1)) loop w = .finished u ∧
        u.output.bytes = w.output.bytes ++ (linesText (texts.map itemLine)).toUTF8) ∧
      ∀ text,
        (∀ inside, IsQuotedLine text inside → itemLine text = "<li>" ++ escape inside ++ "</li>") ∧
        ((∀ inside, ¬ IsQuotedLine text inside) →
          (itemLine text = "<li>" ++ escape text ++ "</li>" ↔
            ∀ inside, text ≠ quotedName inside) ∧
          ∀ inside, text = quotedName inside →
            itemLine text = "<li>" ++ escape inside ++ "</li>") := by
  intro texts loop
  simp only [List.forall_mem_cons, List.not_mem_nil, false_implies, implies_true, and_true]
    at hstore
  obtain ⟨htoken, hequals, hvariable⟩ := hstore
  have hheader := header_fileLoop hname htoken line hv hsize hequals
  rw [Store.resolve_of_get?_eq_none hvariable] at hheader
  have hrun := runBlock_itemLoop hstandard hheader hl hvariable hne hread n
  have hquoted (inside : String) :
      itemLine (quotedName inside) = "<li>" ++ escape inside ++ "</li>" := by
    rw [itemLine, shown_requote_quotedName]
  refine ⟨hrun, fun hroom => ?_, fun text => ⟨?_, fun _ => ⟨?_, ?_⟩⟩⟩
  · have hopened : (w.note (.opened name)).output.room = none := hroom
    obtain ⟨u, hu, hbytes⟩ := exists_runSteps_drawItem env
      (fun text => (l.record w.store).bind v (Literal.requote text)) texts hopened
    exact ⟨u, hrun.trans hu, hbytes⟩
  · rintro inside ⟨rfl, -⟩
    exact hquoted inside
  · rw [← shown_requote_eq_iff, itemLine, String.append_left_inj, String.append_right_inj]
  · rintro inside rfl
    exact hquoted inside

theorem fileLoop_shows_lines_rows :
    let w : World MemoryFiles :=
      { bareWorld .empty with files := MemoryFiles.empty.write "rows" " a & b\n \n\"c\"\n" }
    bareEnvironment.vocabulary = .standard ∧ PlainName "rows" ∧ 2 ≤ "rows".utf8ByteSize ∧
      IsIdentifier "v" ∧ (∀ token ∈ [quotedName "rows", "=", "v"], w.store.get? token = none) ∧
      tokenize "li v" = ["li", "v"] ∧ w.output.room = none ∧
      ∃ u, runBlock (dispatch bareEnvironment 1) (.loop ⟨1, fileLoopLine "v" "rows"⟩ [⟨2, "li v"⟩])
          w = .finished u ∧
        u.output.bytes = (linesText ["<li> a &amp; b</li>", "<li>c</li>"]).toUTF8 := by
  intro w
  have hname : PlainName "rows" := ⟨by decide, by decide, by decide, by decide⟩
  have hstore : ∀ token ∈ [quotedName "rows", "=", "v"], w.store.get? token = none :=
    fun _ _ => rfl
  have htokens : tokenize "li v" = ["li", "v"] := by decide +kernel
  have hread : FileStore.read w.files "rows" = .ok " a & b\n \n\"c\"\n" := rfl
  have hstandard : bareEnvironment.vocabulary = .standard := rfl
  obtain ⟨-, hwritten, hitems⟩ := fileLoop_shows_lines hstandard hname (by decide) isIdentifier_v
    (by decide) hstore (l := ⟨2, "li v"⟩) htokens hread 1 0
  obtain ⟨u, hrun, hbytes⟩ := hwritten rfl
  have htexts : (lines " a & b\n \n\"c\"\n").filter (fun text => ¬ IsBlank text) =
      [" a & b", "\"c\""] := by decide +kernel
  have hplain : itemLine " a & b" = "<li> a &amp; b</li>" := by decide +kernel
  have hquoted : itemLine "\"c\"" = "<li>c</li>" :=
    (hitems "\"c\"").1 "c" ⟨rfl, isEscaped_of_all (by decide)⟩
  refine ⟨rfl, hname, by decide, isIdentifier_v, hstore, htokens, rfl, u, hrun, ?_⟩
  rw [hbytes, htexts, List.map_cons, List.map_cons, List.map_nil, hplain, hquoted]
  exact ByteArray.empty_append

/-- A line that begins with a literal and ends with another one is no literal, and it is shown
without its first and last quotes. -/
theorem line_of_two_literals_loses_quotes :
    let w : World MemoryFiles :=
      { bareWorld .empty with files := MemoryFiles.empty.write "rows" "\"a\" and \"b\"\n" }
    (∀ inside, ¬ IsQuotedLine "\"a\" and \"b\"" inside) ∧
      escape "\"a\" and \"b\"" = "\"a\" and \"b\"" ∧
      (compile bareEnvironment 1 (.ofText "for t = \"rows\"\nli t\nefor\n") w).2.output.text =
        "<li>a\" and \"b</li>\n" := by
  intro w
  refine ⟨?_, by decide +kernel, by decide +kernel⟩
  rintro inside ⟨hline, hescaped⟩
  have hinside : inside = "a\" and \"b" := by
    have hinner := congrArg Literal.inner hline
    rw [inner_quotedName] at hinner
    exact hinner.symm.trans (by decide +kernel)
  rw [hinside] at hescaped
  -- The second character is a double quote without a backslash in front of it.
  obtain _ | ⟨-, -, hrest⟩ := hescaped
  obtain _ | ⟨hquote, -, -⟩ := hrest
  exact hquote rfl

end DeckScript
