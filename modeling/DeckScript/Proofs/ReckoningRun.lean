import DeckScript.Proofs.BlockLines
import DeckScript.Proofs.LoopVariable
import DeckScript.Proofs.Nesting
import DeckScript.Proofs.Reckoning
import DeckScript.Proofs.ScriptParts
import DeckScript.Run.Compile

/-!
# Runs that reckon

A run of a script that only calculates goes along with the reckoner line by line. Each line is
resolved, read and carried out, and afterwards the variables hold texts of the reckoner's numbers
and the report holds the reckoner's faults.

## Main definitions

* `Reckoning.Tally.Describes` — a state of the run is as the reckoner has it

## Main results

* `Reckoning.exists_runAssignment` — what a line does that calculates
* `Reckoning.Tally.Describes.step`, `Reckoning.Tally.Describes.run` — the run and the reckoner agree
  after one line and after many
* `Reckoning.runBlocks_describes` — they agree after any number of lines of a script
-/

namespace DeckScript.Reckoning

/-! ## One line -/

variable {φ : Type} {w : World φ} {vars : Table Float} {r : Record}

/-- The state after a line whose value is known, before a fault goes into the report. -/
def settleValue (w : World φ) (target : Name) : Except Fault String → Attempt φ
  | .ok text => .done { w with store := w.store.insert target.text text }
  | .error fault => .fault fault w

section Lines

variable (h : Agrees w.store vars)
include h

theorem resolve_equals : w.store.resolve "=" = "=" :=
  h.resolve_of_ne fun n => n.isIdentifier.ne_equals

theorem resolve_operator (op : Operator) :
    w.store.resolve (op.token) = op.token :=
  h.resolve_of_ne fun n => n.ne_operator op

theorem runAssignment_set {target : Name} {value : Constant}
    (hr : r.tokens = resolveArgs w.store (Statement.set target value).tokens) :
    runAssignment r w = settleValue w target (.ok value.text) := by
  have hvalue : w.store.resolve value.text = value.text :=
    h.resolve_of_ne (Name.ne_of_parse? value.parse?_text)
  have htokens : r.tokens = [target.text, "=", value.text] := by
    rw [hr, Statement.tokens, resolveArgs, List.map_cons, List.map_singleton, resolve_equals h,
      hvalue]
  have hassignment : r.isAssignment := by
    rw [Record.isAssignment, Record.length, Record.arg, htokens]
    rfl
  have hassigned : assignedValue w.store w.random r = .ok (value.text, w.random) := by
    rw [assignedValue, Record.length, Record.arg, htokens]
    rfl
  rw [runAssignment, if_pos hassignment, assign, hassigned, Record.keyword, Record.arg, htokens]
  rfl

theorem runAssignment_operate {target : Name} {left right : Operand} {op : Operator}
    (hr : r.tokens = resolveArgs w.store (Statement.operate target left op right).tokens) :
    runAssignment r w = settleValue w target
      (operationText op (w.store.resolve left.token) (w.store.resolve right.token)) := by
  obtain ⟨s, hs⟩ : ∃ s, s = w.store.resolve left.token := ⟨_, rfl⟩
  obtain ⟨t, ht⟩ : ∃ t, t = w.store.resolve right.token := ⟨_, rfl⟩
  have htokens : r.tokens = [target.text, "=", s, op.token, t] := by
    simp only [hr, Statement.tokens, resolveArgs, List.map_cons, List.map_nil, resolve_equals h,
      resolve_operator h, hs, ht]
  have harg (i : Nat) : r.arg i = [target.text, "=", s, op.token, t].getD i "" := by
    rw [Record.arg, htokens]
  have hlength : r.length = 5 := by
    rw [Record.length, htokens]
    rfl
  have hassignment : r.isAssignment := by
    rw [Record.isAssignment, hlength, harg]
    rfl
  have hrandom : r.arg 2 ≠ "random" := by
    rw [harg]
    exact hs ▸ h.resolve_ne_random left
  have hvalue : operationValue w.store r = operationText op s t := by
    -- The operands were resolved with the line, and they are resolved again to be read.
    have hleft : operand w.store (r.arg 2) = number s := by
      rw [harg]
      exact hs ▸ h.operand_resolve left.token
    have hright : operand w.store (r.arg 4) = number t := by
      rw [harg]
      exact ht ▸ h.operand_resolve right.token
    have hop : Operator.ofToken? (r.arg 3) = some op := by
      rw [harg]
      exact Operator.ofToken?_token op
    rw [operationValue, operationText, hleft, hright, hop]
  rw [← hs, ← ht, runAssignment, if_pos hassignment, assign, assignedValue, hlength]
  simp only [if_neg hrandom]
  rw [hvalue, Record.keyword, harg]
  cases operationText op s t <;> rfl

theorem runAssignment_change {target : Name} {right : Operand} {op : Operator}
    (hr : r.tokens = resolveArgs w.store (Statement.change target op right).tokens) :
    runAssignment r w = settleValue w target
      (operationText op (w.store.resolve target.text) (w.store.resolve right.token)) := by
  obtain ⟨t, ht⟩ : ∃ t, t = w.store.resolve right.token := ⟨_, rfl⟩
  have htokens : r.tokens = [target.text, op.token, "=", t] := by
    simp only [hr, Statement.tokens, resolveArgs, List.map_cons, List.map_nil, resolve_equals h,
      resolve_operator h, ht]
  have harg (i : Nat) : r.arg i = [target.text, op.token, "=", t].getD i "" := by
    rw [Record.arg, htokens]
  have hlength : r.length = 4 := by
    rw [Record.length, htokens]
    rfl
  have hop : Operator.ofToken? (r.arg 1) = some op := by
    rw [harg]
    exact Operator.ofToken?_token op
  have hassignment : ¬ r.isAssignment := by
    rw [Record.isAssignment, harg]
    simpa using fun _ => Operator.token_ne_equals op
  have hcompound : r.isCompound := by
    rw [Record.isCompound, hlength, hop, harg]
    rfl
  have hvalue : compoundValue w.store r =
      operationText op (w.store.resolve target.text) t := by
    -- The first token is the only one that the line did not resolve.
    have hleft : operand w.store r.keyword = number (w.store.resolve target.text) := by
      rw [Record.keyword, harg]
      exact h.operand_eq target.text
    have hright : number (r.arg 3) = number t := by
      rw [harg]
      rfl
    rw [compoundValue, operationText, hleft, hright, hop]
  rw [← ht, runAssignment, if_neg hassignment, if_pos hcompound, assignCompound, hvalue,
    Record.keyword, harg]
  cases operationText op (w.store.resolve target.text) t <;> rfl

/-- Carrying out a line gives its variable the text of the number, or has a fault of the class. -/
theorem exists_runAssignment (s : Statement) (hr : r.tokens = resolveArgs w.store s.tokens) :
    ∃ result, Accounts result (s.value vars) ∧
      runAssignment r w = settleValue w s.target result := by
  cases s with
  | set target value => exact ⟨_, .value value.parse?_text, runAssignment_set h hr⟩
  | operate target left op right =>
    refine ⟨_, ?_, runAssignment_operate h hr⟩
    rw [Statement.value, ← h.parse?_resolve, ← h.parse?_resolve]
    exact accounts_operationText op _ _
  | change target op right =>
    refine ⟨_, ?_, runAssignment_change h hr⟩
    have htarget : Number.parse? (w.store.resolve target.text) = vars.get? target.text :=
      h.parse?_resolve (.name target)
    rw [Statement.value, ← htarget, ← h.parse?_resolve]
    exact accounts_operationText op _ _

end Lines

/-! ## Runs -/

/-- The variables agree, and the report holds the faults with their lines. -/
structure Tally.Describes (t : Tally) (w : World φ) : Prop where
  agrees : Agrees w.store t.vars
  includes : w.includes = []
  faults : List.Forall₂ (fun d f => d.line = f.1 ∧ d.file = none ∧ d.fault.kind = f.2)
    w.report.toList t.faults

theorem Tally.describes_renew {w : World φ} (hstore : w.store = .empty) :
    Tally.empty.Describes w.renew where
  agrees := hstore ▸ .empty
  includes := rfl
  faults := .nil

theorem Tally.Describes.announce {t : Tally} (h : t.Describes w) (env : Environment)
    (r : Record) : t.Describes (announce env r w) := by
  rw [DeckScript.announce]
  split
  · exact ⟨h.agrees, h.includes, h.faults⟩
  · exact h

theorem tokenChars_comment (rest : List Char) :
    tokenChars ('#' :: rest) = ['#'] :: tokenChars rest := by
  have hblank : Text.isWhiteSpace '#' = false := by decide +kernel
  have hdigit : Char.isDigit '#' = false := rfl
  have hstart : Lexeme.isIdentifierStart '#' = false := by decide +kernel
  have hextent : Lexeme.extent '#' rest = (.single, 0) := by
    simp [Lexeme.extent, Lexeme.backquote, hblank, hdigit, hstart]
  rw [tokenChars_cons, hextent]
  rfl

/-- A line begins with the name that it assigns to. -/
theorem keyword?_eq {l : SourceLine} {s : Statement} (hl : tokenize l.text = s.tokens) :
    l.keyword? = some s.target.text := by
  have hhead : (tokenize l.text).head? = some s.target.text := by
    rw [hl]
    cases s <;> rfl
  rw [SourceLine.keyword?, if_neg, hhead]
  -- A comment line would have its mark for the first token.
  intro hcomment
  obtain ⟨rest, hrest⟩ := List.head?_eq_some_iff.1 hcomment
  rw [tokenize_eq_map_tokenChars, hrest, tokenChars_comment] at hhead
  exact s.target.ne_of_head? (by decide +kernel) (Option.some.inj hhead).symm

theorem take_zipIdx {α : Type} (l : List α) (n k : Nat) :
    (l.take k).zipIdx n = (l.zipIdx n).take k := by
  apply List.ext_getElem?
  intro i
  rw [List.getElem?_take, List.getElem?_zipIdx, List.getElem?_zipIdx, List.getElem?_take]
  split <;> rfl

/-- The lines of a script and the statements that they write have the same numbers. -/
theorem forall₂_zipIdx {k : Nat} {bytes : List (List UInt8)} {statements : List Statement}
    (h : List.Forall₂ (fun l s => tokenize l.text = s.tokens) (numberedFrom k bytes) statements) :
    List.Forall₂ (fun l p => tokenize l.text = p.1.tokens ∧ l.number = p.2)
      (numberedFrom k bytes) (statements.zipIdx k) := by
  induction bytes generalizing k statements with
  | nil =>
    cases h
    exact .nil
  | cons first rest ih =>
    obtain _ | ⟨hfirst, hrest⟩ := h
    exact .cons ⟨hfirst, rfl⟩ (ih hrest)

variable [FileStore φ] {env : Environment} {t : Tally} {l : SourceLine} {s : Statement}

/-- The run and the reckoner agree after one more line, and a fault leaves the variables of both
as they are. -/
theorem Tally.Describes.step (hstandard : env.vocabulary = .standard) (h : t.Describes w)
    (hl : tokenize l.text = s.tokens) (n : Nat) :
    ∃ u, runBlock (dispatch env (n + 1)) (.directive l) w = .finished u ∧
      (t.step (s, l.number)).Describes u ∧
      ∀ kind, s.value t.vars = .error kind → u.store = w.store := by
  have hkeyword : env.vocabulary.get? (l.record w.store).keyword = none := by
    rw [SourceLine.keyword_record (keyword?_eq hl), hstandard]
    exact s.target.notKeyword
  have hstore := Call.announce_store env (l.record w.store) w
  have hr : (l.record w.store).tokens =
      resolveArgs (DeckScript.announce env (l.record w.store) w).store s.tokens := by
    rw [hstore]
    exact congrArg (resolveArgs w.store) hl
  have hv := h.announce env (l.record w.store)
  rw [runBlock, dispatch_succ, execute, hkeyword]
  -- Only the journal tells the state after the announcement from the one before it.
  revert hr hstore hv
  generalize DeckScript.announce env (l.record w.store) w = v
  intro hstore hr hv
  obtain ⟨result, haccounts, hrun⟩ := exists_runAssignment hv.agrees s hr
  dsimp only
  rw [hrun]
  obtain ⟨expected, hexpected⟩ : ∃ expected, expected = s.value t.vars := ⟨_, rfl⟩
  rw [Tally.step, ← hexpected]
  rw [← hexpected] at haccounts
  cases haccounts with
  | @value text x htext =>
    refine ⟨_, rfl, ⟨hv.agrees.insert s.target htext, hv.includes, hv.faults⟩, ?_⟩
    intro kind hfault
    cases hfault
  | fault fault =>
    refine ⟨_, rfl, ⟨hv.agrees, hv.includes, ?_⟩, fun _ _ => hstore⟩
    have hfile : v.includes.head? = none := by
      rw [hv.includes]
      rfl
    rw [World.blame, Report.toList_push]
    exact List.rel_append hv.faults (.cons ⟨rfl, hfile, rfl⟩ .nil)

/-- They agree after many lines. -/
theorem Tally.Describes.run (hstandard : env.vocabulary = .standard) {ls : List SourceLine}
    {ps : List (Statement × Nat)}
    (hls : List.Forall₂ (fun l p => tokenize l.text = p.1.tokens ∧ l.number = p.2) ls ps)
    (h : t.Describes w) (n : Nat) :
    ∃ u, runBlocks (dispatch env (n + 1)) (ls.map .directive) w = .finished u ∧
      (ps.foldl Tally.step t).Describes u := by
  induction hls generalizing t w with
  | nil => exact ⟨w, rfl, h⟩
  | cons hl hrest ih =>
    obtain ⟨v, hfirst, hv, -⟩ := h.step hstandard hl.1 n
    rw [hl.2] at hv
    obtain ⟨u, hothers, hu⟩ := ih hv
    refine ⟨u, ?_, hu⟩
    rw [List.map_cons, runBlocks, hfirst, Outcome.finished_andThen, hothers]

/-- Let every line of a script set a variable to a number, set it to the result of an operation, or
change it by one. After any number of lines of a run that begins without variables, the variables
have the texts of the reckoner's numbers, and the report has the reckoner's faults. A line that has
a fault leaves the variables of both as they are. -/
theorem runBlocks_describes (hstandard : env.vocabulary = .standard) {source : Source}
    (hfailure : source.failure = none) {statements : List Statement}
    (hlines : List.Forall₂ (fun l s => tokenize l.text = s.tokens) source.lines statements)
    {w : World φ} (hstore : w.store = .empty) (n : Nat) :
    source.blocks = source.lines.map .directive ∧
      ∀ k, ∃ u, runBlocks (dispatch env (n + 1)) (source.blocks.take k) w.renew = .finished u ∧
        (Tally.ofStatements (statements.take k)).Describes u ∧
        ∀ s kind, statements[k]? = some s →
          s.value (Tally.ofStatements (statements.take k)).vars = .error kind →
          ∃ v, runBlocks (dispatch env (n + 1)) (source.blocks.take (k + 1)) w.renew =
            .finished v ∧ v.store = u.store := by
  obtain ⟨hlength, hwrites⟩ := List.forall₂_iff_get.1 hlines
  have hblocks : source.blocks = source.lines.map .directive := by
    apply Source.blocks_eq_directives hfailure
    intro l hl
    obtain ⟨i, hi, rfl⟩ := List.getElem_of_mem hl
    have hkeyword := keyword?_eq (hwrites i hi (hlength ▸ hi))
    exact ⟨_, hkeyword, Name.ne_for _, Name.ne_data _⟩
  have hnumbered := forall₂_zipIdx (source.lines_eq_numberedFrom ▸ hlines)
  rw [← source.lines_eq_numberedFrom] at hnumbered
  refine ⟨hblocks, fun k => ?_⟩
  obtain ⟨u, hrun, hu⟩ :=
    (Tally.describes_renew hstore).run hstandard (List.forall₂_take k hnumbered) n
  rw [← take_zipIdx] at hu
  rw [List.map_take, ← hblocks] at hrun
  refine ⟨u, hrun, hu, fun s kind hs hfault => ?_⟩
  obtain ⟨hk, rfl⟩ := List.getElem?_eq_some_iff.1 hs
  have hline : k < source.lines.length := hlength ▸ hk
  obtain ⟨v, hstep, -, hkept⟩ := hu.step hstandard (hwrites k hline hk) n
  refine ⟨v, ?_, hkept kind hfault⟩
  have htake : source.blocks.take (k + 1) =
      source.blocks.take k ++ [.directive source.lines[k]] := by
    rw [hblocks, List.take_add_one, List.getElem?_map, List.getElem?_eq_getElem hline]
    rfl
  rw [htake, runBlocks_append, hrun, Outcome.finished_andThen]
  exact (Outcome.andThen_finished _).trans hstep

/-! ## A sum and two faults -/

/-- The name of the sum. -/
def sumName : Name where
  text := "x"
  isIdentifier := ⟨'x', [], rfl, by decide +kernel, fun _ h => nomatch h⟩
  notKeyword := by decide +kernel
  ne_for := by decide
  ne_data := by decide
  ne_random := by decide
  notNumber := by decide +kernel

/-- A name that is never assigned to. -/
def unsetName : Name where
  text := "_y"
  isIdentifier :=
    ⟨'_', ['y'], rfl, by decide +kernel, List.forall_mem_singleton.2 (by decide +kernel)⟩
  notKeyword := by decide +kernel
  ne_for := by decide
  ne_data := by decide
  ne_random := by decide
  notNumber := by decide +kernel

/-- A tenth. -/
def tenth : Constant := ⟨"0.1", '0', ['.', '1'], rfl, by decide +kernel, fun _ => rfl⟩

/-- A zero with a point and an exponent. -/
def scaledZero : Constant := ⟨".0e+7", '.', ['0', 'e', '+', '7'], rfl, by decide +kernel, nofun⟩

/-- A script that adds a tenth twice and divides by zero and by nothing. -/
def sumScript : Source :=
  .ofText "x = 0.1\nx += 0.1 // a fifth\nx = x+0.1\nx = x/.0e+7\nx*=_y\n"

/-- What the lines of the script say. -/
def sumStatements : List Statement :=
  [.set sumName tenth, .change sumName .add (.constant tenth),
    .operate sumName (.name sumName) .add (.constant tenth),
    .operate sumName (.name sumName) .divide (.constant scaledZero),
    .change sumName .multiply (.name unsetName)]

theorem runBlocks_describes_sum :
    let env : Environment := ⟨.standard, 16, false, .ofAnswers fun _ => .ok .empty⟩
    let w : World MemoryFiles := ⟨.empty, .ofSeed 1, .empty, .empty, .unlimited, [], []⟩
    List.Forall₂ (fun l s => tokenize l.text = s.tokens) sumScript.lines sumStatements ∧
      (Tally.ofStatements sumStatements).vars.get? "x" = some (0.1 + 0.1 + 0.1) ∧
      (Tally.ofStatements sumStatements).faults = [(4, .arithmetic), (5, .number)] ∧
      ∃ u, run env 1 sumScript w = .finished u ∧
        (Tally.ofStatements sumStatements).Describes u := by
  intro env w
  have hlines : List.Forall₂ (fun l s => tokenize l.text = s.tokens) sumScript.lines
      sumStatements := by
    have htexts : sumScript.lines = [⟨1, "x = 0.1"⟩, ⟨2, "x += 0.1 // a fifth"⟩,
        ⟨3, "x = x+0.1"⟩, ⟨4, "x = x/.0e+7"⟩, ⟨5, "x*=_y"⟩] := by decide +kernel
    rw [htexts]
    exact .cons (by decide +kernel) (.cons (by decide +kernel) (.cons (by decide +kernel)
      (.cons (by decide +kernel) (.cons (by decide +kernel) .nil))))
  have hstandard : env.vocabulary = .standard := rfl
  have hstore : w.store = .empty := rfl
  obtain ⟨hblocks, hagree⟩ := runBlocks_describes hstandard rfl hlines hstore 0
  obtain ⟨u, hrun, hu, -⟩ := hagree 5
  refine ⟨hlines, by decide +kernel, by decide +kernel, u, ?_, hu⟩
  have hall : sumScript.blocks.take 5 = sumScript.blocks := by
    apply List.take_of_length_le
    rw [hblocks, List.length_map, hlines.length_eq]
    rfl
  rwa [hall] at hrun

end DeckScript.Reckoning
