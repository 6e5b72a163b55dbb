import DeckScript.Proofs.Coupling
import DeckScript.Proofs.Standard

/-!
# Going on behind another run

A run may go on where another one stopped: its output begins with the bytes that are there already,
its report with the diagnostics that are there, and the lines of the script have other numbers. The
lines of included files keep theirs. Nothing that a step does depends on these things, so taking a
step and then looking at its state as one behind the other run is looking at the state first and
then taking the step. Traces tell the numbers of lines and are left out of the comparison.

## Main definitions

* `Lead` — what there is in front of a run, and how it numbers its lines
* `World.behind` — a state as it is behind a lead
* `Commutes` — a step that does the same without a lead and behind it
* `Directive.IgnoresPlace` — what a directive does is the same wherever its line stands

## Main results

* `commutes_dispatch` — carrying out a record does the same behind a lead
* `commutes_blocks` — and so do the blocks of a script
* `map_behind_run` — a run whose lines have other numbers
-/

namespace DeckScript

/-! ## Directives that ignore their place -/

/-- A directive does not look at the number of its line. It runs no text as a script either, whose
lines would have numbers of their own. -/
structure Directive.IgnoresPlace (d : Directive) : Prop where
  ignoresLine : d.IgnoresLine
  runsNoText (store : Store) (r : Record) (text : String) : d.ask store r ≠ .ok (.run text)

theorem Vocabulary.ignoresPlace {keyword : String} {d : Directive}
    (hd : standard.get? keyword = some d) : d.IgnoresPlace where
  ignoresLine := ignoresLine hd
  runsNoText _ _ _ h := isStandard_of_ask hd h

/-- Records that are alike ask for the same. -/
theorem Directive.IgnoresPlace.ask_eq {d : Directive} (h : d.IgnoresPlace) {N : Nat → Nat → Prop}
    {r s : Record} (hrs : r.Alike N s) (store : Store) : d.ask store r = d.ask store s := by
  rw [h.ignoresLine store r, h.ignoresLine store s, hrs.tokens, hrs.text]

/-- The environment without traces. -/
def Environment.untraced (env : Environment) : Environment := { env with traced := false }

/-! ## What there is in front of a run -/

variable {φ : Type}

/-- A note that a line is about to be carried out. -/
def Event.isTrace : Event → Bool
  | .traced _ _ => true
  | .opened _ | .saved _ _ | .called _ => false

/-- A diagnostic after the lines of the script itself are numbered anew. -/
def Diagnostic.renumber (number : Nat → Nat) (d : Diagnostic) : Diagnostic :=
  match d.file with
  | none => { d with line := number d.line }
  | some _ => d

theorem Diagnostic.renumber_id : renumber id = id := by
  funext d
  rw [renumber]
  split <;> rfl

/-- The output with bytes in front of what has been written. -/
def Output.behind (bytes : ByteArray) (o : Output) : Output := { o with bytes := bytes ++ o.bytes }

/-- What there is in front of a run. -/
structure Lead where
  /-- The number that a line of the script has behind the lead. -/
  number : Nat → Nat
  bytes : ByteArray
  diagnostics : Array Diagnostic

/-- There is nothing in front of a run, but its lines have other numbers. -/
def Lead.numbering (number : Nat → Nat) : Lead := ⟨number, .empty, #[]⟩

/-- The number that a line has behind the lead when it is carried out inside of these files. -/
def Lead.lineIn (lead : Lead) (files : List String) (line : Nat) : Nat :=
  match files with
  | [] => lead.number line
  | _ :: _ => line

/-- The state as it is behind the lead, without its traces. -/
def World.behind (lead : Lead) (w : World φ) : World φ :=
  { w with
    report := ⟨lead.diagnostics ++ w.report.diagnostics.map (Diagnostic.renumber lead.number)⟩
    output := w.output.behind lead.bytes
    journal := w.journal.filter fun e => !e.isTrace }

/-! ## States behind a lead -/

/-- The room that is left decides what is taken, whatever is there already. -/
theorem Output.write_behind (o : Output) (bytes data : ByteArray) :
    (o.behind bytes).write data = ((o.write data).1.behind bytes, (o.write data).2) := by
  simp only [write, behind]
  split
  · simp only [ByteArray.append_assoc]
  · split <;> simp only [ByteArray.append_assoc]

namespace World

variable (lead : Lead) (w : World φ)

theorem behind_note {e : Event} (he : e.isTrace = false) :
    (w.note e).behind lead = (w.behind lead).note e := by
  simp [behind, note, he]

theorem behind_trace (line : Nat) (tokens : List String) :
    (w.note (.traced line tokens)).behind lead = w.behind lead := by
  simp [behind, note, Event.isTrace]

theorem behind_blame (line : Nat) (fault : Fault) :
    (w.blame line fault).behind lead =
      (w.behind lead).blame (lead.lineIn w.includes line) fault := by
  cases h : w.includes <;> simp [behind, blame, Report.push, Diagnostic.renumber, Lead.lineIn, h]

theorem behind_write (data : ByteArray) :
    (w.write data).map (behind lead) = (w.behind lead).write data := by
  have hwrite : (w.behind lead).output.write data =
      ((w.output.write data).1.behind lead.bytes, (w.output.write data).2) :=
    w.output.write_behind lead.bytes data
  rw [write, write, hwrite]
  rcases w.output.write data with ⟨output, _ | _⟩ <;> rfl

theorem behind_open [FileStore φ] (name : String) :
    (w.behind lead).open? name = ((w.open? name).1.behind lead, (w.open? name).2) := by
  rw [open?, open?, behind_note lead w rfl]
  rfl

theorem calls_behind : (w.behind lead).calls = w.calls := by
  rw [calls, calls, behind, List.filterMap_filter]
  congr 1
  funext e
  cases e <;> rfl

theorem behind_call [FileStore φ] (runner : Runner) (command : List String) :
    (w.behind lead).call? runner command =
      ((w.call? runner command).1.behind lead, (w.call? runner command).2) := by
  rw [call?, call?, behind_note lead w rfl, calls_behind]
  rfl

@[simp] theorem output_behind_numbering (number : Nat → Nat) :
    (w.behind (.numbering number)).output = w.output := by
  simp [behind, Output.behind, Lead.numbering]

end World

/-- A change that keeps the output keeps how a compilation ends. -/
theorem Outcome.verdict_map {f : World φ → World φ} (hf : ∀ w, (f w).output = w.output)
    (source : Source) (o : Outcome φ) : (o.map f).verdict source = o.verdict source := by
  cases o with
  | finished w | refused w => simp only [map, verdict, hf]
  | exhausted w => rfl

/-- Looking at the states behind a lead goes through a sequence of two steps. -/
theorem Outcome.map_andThen {o : Outcome φ} {g h : Step φ} {f : World φ → World φ}
    (hgh : ∀ w, o = .finished w → (g w).map f = h (f w)) :
    (o.andThen g).map f = (o.map f).andThen h := by
  cases o with
  | finished w => exact hgh w rfl
  | refused w | exhausted w => rfl

/-- Change the states of an attempt. -/
def Attempt.map (f : World φ → World φ) : Attempt φ → Attempt φ
  | fault reason w => fault reason (f w)
  | outcome o => outcome (o.map f)

/-! ## Steps that commute -/

variable [FileStore φ]

/-- Taken inside of these included files, the step `f` does without the lead what the step `g` does
behind it. -/
structure Commutes (lead : Lead) (files : List String) (f g : Step φ) : Prop where
  advances : Advances f
  map_behind (w : World φ) : w.includes = files → (f w).map (.behind lead) = g (w.behind lead)

section Commutes

variable {lead : Lead} {files : List String}

omit [FileStore φ] in
/-- A fault goes into the report with the number that its line has behind the lead. -/
theorem Attempt.map_settle {a : Attempt φ} (ha : a.state.includes = files) (line : Nat) :
    (a.settle line).map (.behind lead) =
      (a.map (.behind lead)).settle (lead.lineIn files line) := by
  cases a with
  | fault f w =>
    have hblame := w.behind_blame lead line f
    rw [show w.includes = files from ha] at hblame
    exact congrArg Outcome.finished hblame
  | outcome o => rfl

theorem commutes_runSteps {ss ts : List (Step φ)}
    (hsteps : List.Forall₂ (Commutes lead files) ss ts) :
    Commutes lead files (runSteps ss) (runSteps ts) := by
  induction hsteps with
  | nil => exact ⟨World.Precedes.refl, fun w _ => rfl⟩
  | @cons s t ss ts hst _ ih =>
    refine ⟨fun w => Outcome.precedes_andThen (hst.advances w) ih.advances, fun w hw => ?_⟩
    rw [runSteps_cons, runSteps_cons, ← hst.map_behind w hw]
    refine Outcome.map_andThen fun u hu => ih.map_behind u ?_
    -- The first step ends inside of the same files.
    have hsame := (hst.advances w).includes
    rw [hu] at hsame
    exact hsame.trans hw

theorem commutes_runSteps_map {α β : Type*} {f : α → Step φ} {g : β → Step φ} {as : List α}
    {bs : List β} (hfg : List.Forall₂ (fun a b => Commutes lead files (f a) (g b)) as bs) :
    Commutes lead files (runSteps (as.map f)) (runSteps (bs.map g)) := by
  apply commutes_runSteps
  rw [List.forall₂_map_left_iff, List.forall₂_map_right_iff]
  exact hfg

theorem values_behind (source : Loop.Source) (w : World φ) :
    source.values (w.behind lead) = ((source.values w).1.behind lead, (source.values w).2) := by
  cases source with
  | range first last step => rfl
  | items tokens => rfl
  | file name =>
    rw [Loop.Source.values, Loop.Source.values, World.behind_open]
    rcases w.open? name with ⟨u, reason | contents⟩ <;> rfl

end Commutes

/-! ## Runs that commute -/

section Runs

variable {lead : Lead} {files : List String} {exec exec' : Record → Step φ}

/-- Lines with the numbers that they have without the lead and behind it. -/
abbrev Lead.Numbers (lead : Lead) (files : List String) (l m : Nat) : Prop :=
  m = lead.lineIn files l

variable (hexec : ∀ files (r s : Record), r.Alike (lead.Numbers files) s →
  Commutes lead files (exec r) (exec' s))
include hexec

theorem commutes_runRecords {rs ss : List Record}
    (hrs : List.Forall₂ (Record.Alike (lead.Numbers files)) rs ss) :
    Commutes lead files (runRecords exec rs) (runRecords exec' ss) := by
  rw [funext (runRecords_eq_runSteps exec rs), funext (runRecords_eq_runSteps exec' ss)]
  exact commutes_runSteps_map (hrs.imp fun r s hr => hexec files r s hr)

theorem advances_of_commutes (r : Record) : Advances (exec r) :=
  (hexec [] r { r with line := lead.number r.line } ⟨rfl, rfl, rfl⟩).advances

theorem runLoop_behind {header header' : SourceLine} {body body' : List SourceLine}
    (hheader : header.Alike (lead.Numbers files) header')
    (hbody : List.Forall₂ (SourceLine.Alike (lead.Numbers files)) body body') {w : World φ}
    (hw : w.includes = files) :
    (runLoop exec header body w).map (.behind lead) =
      runLoop exec' header' body' (w.behind lead) := by
  have hstore : (w.behind lead).store = w.store := rfl
  rw [runLoop, runLoop, hstore, (hheader.record w.store).header]
  cases Loop.Header.ofRecord (header'.record w.store) with
  | error fault => rfl
  | ok loop =>
    simp only [runSource_eq, values_behind]
    have hvalues := loop.source.values_fst w
    revert hvalues
    rcases loop.source.values w with ⟨u, fault | values⟩
    · exact fun _ => rfl
    · intro hu
      have hu : u.includes = files := by
        rcases hu with rfl | ⟨name, rfl⟩
        · exact hw
        · exact hw
      refine congrArg Attempt.outcome ((commutes_runSteps_map ?_).map_behind u hu)
      -- Both bodies are bound to the same values, so their records stay alike.
      refine List.forall₂_same.2 fun value _ => commutes_runRecords hexec ?_
      rw [List.map_map, List.map_map, List.forall₂_map_left_iff, List.forall₂_map_right_iff]
      exact hbody.imp fun _ _ hl => (hl.record w.store).bind loop.placeholder value

omit hexec in
theorem runData_behind {header header' : SourceLine} {rows rows' : List SourceLine}
    (hheader : header.Alike (lead.Numbers files) header')
    (hrows : List.Forall₂ (SourceLine.Alike (lead.Numbers files)) rows rows') (w : World φ) :
    (runData header rows w).map (.behind lead) = runData header' rows' (w.behind lead) := by
  have hstore : (w.behind lead).store = w.store := rfl
  have hfiles : (w.behind lead).files = w.files := rfl
  rw [runData, runData, hstore, (hheader.record w.store).target]
  cases Data.target (header'.record w.store) with
  | error fault => rfl
  | ok name =>
    simp only [World.save?, hfiles, Data.contents_congr hrows]
    have hnote := w.behind_note lead (e := .saved name (Data.contents rows')) rfl
    cases FileStore.write w.files name (Data.contents rows') with
    | error reason => exact congrArg (Attempt.fault _) hnote
    | ok files =>
      exact congrArg (fun u : World φ => Attempt.done { u with files }) hnote

theorem commutes_runBlock {b c : Block} (hbc : b.Alike (lead.Numbers files) c) :
    Commutes lead files (runBlock exec b) (runBlock exec' c) := by
  have hadvances := advances_of_commutes hexec
  refine ⟨advances_runBlock hadvances b, fun w hw => ?_⟩
  cases hbc with
  | directive hl => exact (hexec files _ _ (hl.record w.store)).map_behind w hw
  | @loop l m ls ms hheader hbody =>
    have hstate : (runLoop exec l ls w).state.includes = files :=
      (precedes_runLoop hadvances l ls w).includes.trans hw
    rw [runBlock, runBlock, Attempt.map_settle hstate, runLoop_behind hexec hheader hbody hw,
      hheader.number]
  | @data l m ls ms hheader hrows =>
    have hstate : (runData l ls w).state.includes = files :=
      (precedes_runData l ls w).includes.trans hw
    rw [runBlock, runBlock, Attempt.map_settle hstate, runData_behind hheader hrows,
      hheader.number]

/-- Blocks do the same behind a lead if the records they carry out do. -/
theorem commutes_runBlocks {bs cs : List Block}
    (hbs : List.Forall₂ (Block.Alike (lead.Numbers files)) bs cs) :
    Commutes lead files (runBlocks exec bs) (runBlocks exec' cs) := by
  rw [funext (runBlocks_eq_runSteps exec bs), funext (runBlocks_eq_runSteps exec' cs)]
  exact commutes_runSteps_map (hbs.imp fun _ _ hb => commutes_runBlock hexec hb)

theorem commutes_runCell {line line' : Nat} (hline : lead.Numbers files line line')
    (place : Grid.Cursor × String) :
    Commutes lead files (runCell exec line place) (runCell exec' line' place) := by
  refine ⟨advances_runCell (advances_of_commutes hexec) line place, fun w hw => ?_⟩
  have hcell : (place.1.cell w.store line place.2).Alike (lead.Numbers files)
      (place.1.cell (w.behind lead).store line' place.2) := ⟨hline, rfl, rfl⟩
  have hlength : (place.1.cell w.store line place.2).length =
      (place.1.cell (w.behind lead).store line' place.2).length := hcell.congr _ fun _ => rfl
  simp only [runCell, hlength]
  split
  · exact (hexec files _ _ hcell).map_behind w hw
  · rfl

theorem commutes_runGrid {line line' : Nat} (hline : lead.Numbers files line line')
    (layout : Grid.Layout) (c : Grid.Cursor) (texts : List String) :
    Commutes lead files (runGrid exec line layout c texts)
      (runGrid exec' line' layout c texts) := by
  rw [funext (runGrid_eq_runSteps exec line layout c texts),
    funext (runGrid_eq_runSteps exec' line' layout c texts)]
  exact commutes_runSteps_map
    (List.forall₂_same.2 fun place _ => commutes_runCell hexec hline place)

/-! ## Records that commute -/

variable (env : Environment)

/-- The lines of an included file have the same numbers without the lead and behind it. -/
theorem runInclude_behind (name : String) (w : World φ) :
    (runInclude env exec name w).map (.behind lead) =
      runInclude env.untraced exec' name (w.behind lead) := by
  have hlimit : env.untraced.includeLimit = env.includeLimit := rfl
  have hincludes : (w.behind lead).includes = w.includes := rfl
  rw [runInclude, runInclude, hlimit, hincludes]
  split
  · rfl
  · rw [World.behind_open]
    rcases hopen : w.open? name with ⟨u, reason | contents⟩
    · rfl
    · have hsame (n : Nat) : lead.Numbers (name :: u.includes) n n := rfl
      have hblocks := commutes_runBlocks hexec (List.forall₂_same.2
        fun b (_ : b ∈ (Source.ofText contents).blocks) => .refl hsame b)
      have hinside := hblocks.map_behind (u.enter name) rfl
      have hleave (o : Outcome φ) : (o.map World.leave).map (.behind lead) =
          (o.map (.behind lead)).map World.leave := by cases o <;> rfl
      refine congrArg Attempt.outcome ?_
      rw [hleave]
      exact congrArg (Outcome.map World.leave) hinside

theorem fulfil_behind {line line' : Nat} (hline : lead.Numbers files line line')
    {request : Request} (hrequest : ∀ text, request ≠ .run text) {w : World φ}
    (hw : w.includes = files) :
    (fulfil env exec line request w).map (.behind lead) =
      fulfil env.untraced exec' line' request (w.behind lead) := by
  cases request with
  | emit elements => exact congrArg Attempt.outcome (w.behind_write lead _)
  | enter file => exact runInclude_behind hexec env file w
  | fillGrid file layout =>
    rw [fulfil, fulfil, World.behind_open]
    have hopen : (w.open? file).1.includes = files := hw
    revert hopen
    rcases w.open? file with ⟨u, reason | contents⟩
    · exact fun _ => rfl
    · intro hu
      exact congrArg Attempt.outcome
        ((commutes_runGrid hexec hline layout layout.start (Text.lines contents)).map_behind u hu)
  | chart command =>
    have hrunner : env.untraced.runner = env.runner := rfl
    rw [fulfil, fulfil, runChart, runChart, hrunner, World.behind_call]
    rcases w.call? env.runner command with ⟨u, reason | printed⟩
    · rfl
    · exact congrArg Attempt.outcome (u.behind_write lead _)
  | set name value => rfl
  | run text => exact (hrequest text rfl).elim

omit [FileStore φ] hexec in
theorem runAssignment_behind {r s : Record} (hrs : r.Alike (lead.Numbers files) s)
    (w : World φ) :
    (runAssignment r w).map (.behind lead) = runAssignment s (w.behind lead) := by
  have hstore : (w.behind lead).store = w.store := rfl
  have hrandom : (w.behind lead).random = w.random := rfl
  rw [hrs.runAssignment, runAssignment, runAssignment, hstore, hrandom]
  split
  · cases assign w.store w.random s <;> rfl
  · split
    · cases assignCompound w.store s <;> rfl
    · rfl

variable {env} (henv : ∀ keyword d, env.vocabulary.get? keyword = some d → d.IgnoresPlace)
include henv

theorem execute_behind {r s : Record} (hrs : r.Alike (lead.Numbers files) s) {w : World φ}
    (hw : w.includes = files) :
    (execute env exec r w).map (.behind lead) =
      execute env.untraced exec' s (w.behind lead) := by
  have hvocabulary : env.untraced.vocabulary = env.vocabulary := rfl
  have hstore : (w.behind lead).store = w.store := rfl
  rw [execute, execute, hvocabulary, hstore, hrs.keyword]
  cases hd : env.vocabulary.get? s.keyword with
  | none => exact runAssignment_behind hrs w
  | some d =>
    have hplace := henv s.keyword d hd
    simp only [hplace.ask_eq hrs]
    cases hask : d.ask w.store s with
    | error fault => rfl
    | ok request =>
      refine fulfil_behind hexec env hrs.line (fun text htext => ?_) hw
      exact hplace.runsNoText w.store s text (htext ▸ hask)

end Runs

section Dispatch

variable {env : Environment}
  (henv : ∀ keyword d, env.vocabulary.get? keyword = some d → d.IgnoresPlace) {lead : Lead}
  {files : List String}
include henv

/-- Carrying out a record does the same without a lead and behind it. -/
theorem commutes_dispatch (levels : Nat) {r s : Record} (hrs : r.Alike (lead.Numbers files) s) :
    Commutes lead files (dispatch env levels r : Step φ) (dispatch env.untraced levels s) := by
  -- One level more carries out one record more around those that already commute.
  induction levels generalizing files r s with
  | zero => exact ⟨advances_dispatch env 0 r, fun w _ => rfl⟩
  | succ n ih =>
    refine ⟨advances_dispatch env (n + 1) r, fun w hw => ?_⟩
    have hannounce : (announce env r w).behind lead =
        announce env.untraced s (w.behind lead) := by
      have huntraced : announce env.untraced s (w.behind lead) = w.behind lead := rfl
      rw [huntraced, announce]
      split
      · exact w.behind_trace lead r.line r.tokens
      · rfl
    have hincludes : (announce env r w).includes = files :=
      (w.precedes_announce env r).includes.trans hw
    have hstate : (execute env (dispatch env n) r (announce env r w)).state.includes = files :=
      (precedes_execute (advances_dispatch env n) env r _).includes.trans hincludes
    rw [dispatch_succ, dispatch_succ, Attempt.map_settle hstate, ← hannounce, hrs.line,
      execute_behind (fun files r s hrs => ih hrs) henv hrs hincludes]

/-- Blocks do the same without a lead and behind it. -/
theorem commutes_blocks (levels : Nat) {bs cs : List Block}
    (hbs : List.Forall₂ (Block.Alike (lead.Numbers files)) bs cs) :
    Commutes lead files (runBlocks (dispatch env levels) bs : Step φ)
      (runBlocks (dispatch env.untraced levels) cs) :=
  commutes_runBlocks (fun _ _ _ hrs => commutes_dispatch henv levels hrs) hbs

omit [FileStore φ] henv in
theorem alike_numbering_id (bs : List Block) :
    List.Forall₂ (Block.Alike ((Lead.numbering id).Numbers [])) bs bs := by
  have hnumber (n : Nat) : (Lead.numbering id).Numbers [] n n := rfl
  exact List.forall₂_same.2 fun b _ => .refl hnumber b

/-- A run does the same with other numbers of its lines, since there is no fault at its start. -/
theorem map_behind_run {number : Nat → Nat} {source : Source} {cs : List Block}
    (h : List.Forall₂ (Block.Alike ((Lead.numbering number).Numbers [])) source.blocks cs)
    (levels : Nat) (w : World φ) :
    (run env levels source w).map (.behind (.numbering number)) =
      runBlocks (dispatch env.untraced levels) cs (w.renew.behind (.numbering id)) := by
  have hstart : w.renew.behind (.numbering number) = w.renew.behind (.numbering id) := by
    simp [World.behind, World.renew, Lead.numbering, Report.empty]
  rw [run, (commutes_blocks henv levels h).map_behind w.renew rfl, hstart]

end Dispatch

end DeckScript
