import DeckScript.Proofs.Renumbering
import DeckScript.Proofs.WholeElements

/-!
# Lines whose text does not matter

Only charts take their arguments from the text of their line; everything else is decided by the
tokens. So a line that is no chart may have another text with the same tokens, and no run can tell
the difference. In a loop this stays true when a value is put in, since no value of a loop makes a
chart of a line.

## Main definitions

* `Directive.IgnoresText` — what a directive asks for does not depend on the text of its line
* `Vocabulary.ReadsTokens` — only charts look at the texts of their lines
* `Record.Exchangeable`, `SourceLine.Exchangeable`, `Block.Exchangeable` — the same but for a text
  that does not matter

## Main results

* `Vocabulary.readsTokens_standard` — the standard vocabulary looks at texts for its charts only
* `Block.Exchangeable.runBlock_eq` — blocks that are exchangeable do the same
-/

namespace DeckScript

/-! ## Directives -/

/-- What a directive asks for does not depend on the text of its line. -/
def Directive.IgnoresText (d : Directive) : Prop :=
  ∀ store r, d.ask store r = d.ask store { r with text := "" }

namespace Vocabulary

open Directive

theorem ignoresText_of_mem :
    ∀ e ∈ standardEntries, e.1 ∉ chartKeywords → e.2.IgnoresText := by
  have hchart : "chart" ∈ chartKeywords ∧ "dchart" ∈ chartKeywords := by decide
  simp only [standardEntries, deckEntries, textEntries, imageEntries, shapeEntries, arrowEntries,
    externalEntries, List.forall_mem_append, List.forall_mem_cons, List.not_mem_nil,
    false_implies, implies_true, and_true]
  and_intros
  all_goals try exact fun _ _ _ => rfl
  · exact fun h => absurd hchart.1 h
  · exact fun h => absurd hchart.2 h

/-- No directive looks at the number of its line, and none but the charts at its text. -/
def ReadsTokens (vocabulary : Vocabulary) : Prop :=
  ∀ keyword d, vocabulary.get? keyword = some d →
    d.IgnoresPlace ∧ (keyword ∉ chartKeywords → d.IgnoresText)

theorem readsTokens_standard : ReadsTokens standard := by
  intro keyword d hd
  exact ⟨ignoresPlace hd, fun h => ignoresText_of_mem _ (Table.mem_of_get?_ofList hd) h⟩

end Vocabulary

/-! ## Records -/

variable {φ : Type}

/-- Records that are the same, but for their texts if they are no charts. -/
structure Record.Exchangeable (r s : Record) : Prop where
  line : r.line = s.line
  tokens : r.tokens = s.tokens
  text : r.text = s.text ∨ r.keyword ∉ Vocabulary.chartKeywords

namespace Record.Exchangeable

variable {r s : Record}

/-- What is read off the tokens alone is the same. -/
theorem congr {α : Type*} (h : r.Exchangeable s) (f : Record → α)
    (hf : ∀ r, f r = f ⟨0, r.tokens, ""⟩) : f r = f s := by
  rw [hf r, hf s, h.tokens]

theorem keyword (h : r.Exchangeable s) : r.keyword = s.keyword :=
  h.congr _ fun _ => rfl

theorem ask_eq (h : r.Exchangeable s) {d : Directive}
    (hignores : r.keyword ∉ Vocabulary.chartKeywords → d.IgnoresText) (store : Store) :
    d.ask store r = d.ask store s := by
  rcases h.text with htext | hkeyword
  · obtain ⟨line, tokens, text⟩ := r
    obtain ⟨rfl, rfl, -⟩ := h
    obtain rfl := htext
    rfl
  · rw [hignores hkeyword store r, hignores hkeyword store s, h.line, h.tokens]

/-- Carrying out one of two exchangeable records is carrying out the other one. -/
theorem dispatch_eq [FileStore φ] {env : Environment} (henv : env.vocabulary.ReadsTokens)
    (h : r.Exchangeable s) (n : Nat) :
    (dispatch env n r : Step φ) = dispatch env n s := by
  cases n with
  | zero => rfl
  | succ n =>
    funext w
    have hannounce : announce env r w = announce env s w := by
      rw [announce, announce, h.line, h.tokens]
    have hassignment (u : World φ) : runAssignment r u = runAssignment s u :=
      h.congr (fun r => runAssignment r u) fun _ => rfl
    rw [dispatch_succ, dispatch_succ, execute, execute, hannounce, h.line, ← h.keyword]
    cases hd : env.vocabulary.get? r.keyword with
    | none => simp only [hassignment]
    | some d => simp only [h.ask_eq (henv r.keyword d hd).2]

/-- A value that is no keyword makes no chart of a record. -/
theorem bind (h : r.Exchangeable s) (placeholder : String) {value : String}
    (hvalue : Vocabulary.standard.get? value = none) :
    (r.bind placeholder value).Exchangeable (s.bind placeholder value) where
  line := h.line
  tokens := by rw [Record.bind, Record.bind, h.tokens]
  text := by
    rcases h.text with htext | hkeyword
    · refine .inl ?_
      rw [Record.bind, Record.bind, htext]
    · refine .inr (keyword_map_notMem (r := r) rfl (fun token => ?_) hkeyword)
      split
      · exact .inr hvalue
      · exact .inl rfl

end Record.Exchangeable

/-! ## Lines and blocks -/

/-- Lines that are read in the same way, and have the same text if they are charts. -/
structure SourceLine.Exchangeable (l m : SourceLine) : Prop where
  number : l.number = m.number
  keyword? : l.keyword? = m.keyword?
  tokens : tokenize l.text = tokenize m.text
  text : l.text = m.text ∨ ¬IsChartLine l.text

theorem SourceLine.Exchangeable.refl (l : SourceLine) : l.Exchangeable l :=
  ⟨rfl, rfl, rfl, .inl rfl⟩

theorem SourceLine.Exchangeable.record {l m : SourceLine} (h : l.Exchangeable m) (store : Store) :
    (l.record store).Exchangeable (m.record store) where
  line := h.number
  tokens := by rw [SourceLine.record, SourceLine.record, Record.ofLine, Record.ofLine, h.tokens]
  text := h.text.imp id fun hchart => keyword_ofLine_notMem hchart store l.number

/-- Blocks of exchangeable lines. The rows of a data block have the same texts. -/
inductive Block.Exchangeable : Block → Block → Prop
  | directive {l m : SourceLine} : l.Exchangeable m → Exchangeable (.directive l) (.directive m)
  | loop {l m : SourceLine} {ls ms : List SourceLine} :
    l.Exchangeable m → List.Forall₂ SourceLine.Exchangeable ls ms →
      Exchangeable (.loop l ls) (.loop m ms)
  | data {l m : SourceLine} {ls ms : List SourceLine} :
    l.Exchangeable m → ls.map SourceLine.text = ms.map SourceLine.text →
      Exchangeable (.data l ls) (.data m ms)

variable [FileStore φ] {env : Environment} (henv : env.vocabulary.ReadsTokens)
include henv

theorem runRecords_exchangeable {rs ss : List Record}
    (h : List.Forall₂ Record.Exchangeable rs ss) (n : Nat) (w : World φ) :
    runRecords (dispatch env n) rs w = runRecords (dispatch env n) ss w := by
  have hsteps : rs.map (dispatch env n) = (ss.map (dispatch env n) : List (Step φ)) := by
    rw [← List.forall₂_eq_eq_eq, List.forall₂_map_left_iff, List.forall₂_map_right_iff]
    exact h.imp fun _ _ hrs => hrs.dispatch_eq henv n
  rw [runRecords_eq_runSteps, runRecords_eq_runSteps, hsteps]

theorem runLoop_exchangeable {header header' : SourceLine} {body body' : List SourceLine}
    (hheader : header.Exchangeable header')
    (hbody : List.Forall₂ SourceLine.Exchangeable body body') (n : Nat) (w : World φ) :
    runLoop (dispatch env n) header body w = runLoop (dispatch env n) header' body' w := by
  have hloop := (hheader.record w.store).congr Loop.Header.ofRecord fun _ => rfl
  rw [runLoop, runLoop, hloop]
  cases Loop.Header.ofRecord (header'.record w.store) with
  | error fault => rfl
  | ok loop =>
    simp only [runSource_eq]
    cases hvalues : loop.source.values w with
    | mk u found =>
      cases found with
      | error fault => rfl
      | ok values =>
        -- No value is a keyword, so the bound records stay exchangeable.
        have heach : ∀ value ∈ values, ∀ v : World φ,
            runRecords (dispatch env n)
                ((body.map fun l => l.record w.store).map fun r => r.bind loop.placeholder value)
                v =
              runRecords (dispatch env n)
                ((body'.map fun l => l.record w.store).map fun r => r.bind loop.placeholder value)
                v := by
          intro value hvalue v
          have hnone := get?_of_mem_values (w := w) (by rw [hvalues]) value hvalue
          refine runRecords_exchangeable henv ?_ n v
          rw [List.map_map, List.map_map, List.forall₂_map_left_iff, List.forall₂_map_right_iff]
          exact hbody.imp fun l m hlm => (hlm.record w.store).bind loop.placeholder hnone
        refine congrArg (fun steps => Attempt.outcome (runSteps steps u)) ?_
        exact List.map_congr_left fun value hvalue => funext (heach value hvalue)

/-- Exchangeable blocks do the same. -/
theorem Block.Exchangeable.runBlock_eq {b c : Block} (h : b.Exchangeable c) (n : Nat) :
    (runBlock (dispatch env n) b : Step φ) = runBlock (dispatch env n) c := by
  funext w
  cases h with
  | directive hl =>
    rw [runBlock, runBlock, (hl.record w.store).dispatch_eq henv]
  | loop hheader hbody =>
    rw [runBlock, runBlock, runLoop_exchangeable henv hheader hbody, hheader.number]
  | @data l m ls ms hheader hrows =>
    have htarget := (hheader.record w.store).congr Data.target fun _ => rfl
    have hcontents : Data.contents ls = Data.contents ms := by
      have hrow (ls : List SourceLine) :
          ls.filterMap (fun l => Data.row? l.text) =
            (ls.map SourceLine.text).filterMap Data.row? := by
        rw [List.filterMap_map]
        rfl
      rw [Data.contents, Data.contents, hrow, hrow, hrows]
    rw [runBlock, runBlock, runData, runData, htarget, hcontents, hheader.number]

theorem runBlocks_exchangeable {bs cs : List Block}
    (h : List.Forall₂ Block.Exchangeable bs cs) (n : Nat) :
    (runBlocks (dispatch env n) bs : Step φ) = runBlocks (dispatch env n) cs := by
  funext w
  have hsteps : bs.map (runBlock (dispatch env n)) =
      (cs.map (runBlock (dispatch env n)) : List (Step φ)) := by
    rw [← List.forall₂_eq_eq_eq, List.forall₂_map_left_iff, List.forall₂_map_right_iff]
    exact h.imp fun _ _ hbc => hbc.runBlock_eq henv n
  rw [runBlocks_eq_runSteps, runBlocks_eq_runSteps, hsteps]

end DeckScript
