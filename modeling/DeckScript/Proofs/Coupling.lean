import DeckScript.Proofs.Precedence
import Mathlib.Data.List.Forall2

/-!
# Two runs side by side

Two runs of the same lines are compared step by step. As long as their states are related they take
the same branches: what a line does is decided by the variables, by what is read from the files and
by what is drawn from the random stream. Both runs have the same variables. The numbers of the lines
may differ; they are related as well.

Files and random numbers may differ too, but what is read of them has to be the same, or else the
first run is lost for the comparison: it goes on from a state behind which all outcomes count as
related. In the same way one run may fall out of step with the other for good where it meets the
limit of included files, and then only what a run keeps is known of it.

## Main definitions

* `Record.Alike`, `SourceLine.Alike`, `Block.Alike` — the same but for the numbers of lines
* `Accord` — what a relation on states and one on outcomes have to satisfy for all that touches
  neither files nor random numbers
* `Coupling` — and what they have to satisfy for files and random numbers
* `InStep` — two steps that take related states to related outcomes

## Main results

* `Coupling.execute` — a record is carried out in step if the ones nested in it are
* `Coupling.runBlocks` — and so are the blocks of a script
-/

namespace DeckScript

variable {φ : Type}

/-! ## The same lines with other numbers -/

/-- Records that are the same but for the numbers of their lines. -/
structure Record.Alike (N : Nat → Nat → Prop) (r s : Record) : Prop where
  line : N r.line s.line
  tokens : r.tokens = s.tokens
  text : r.text = s.text

/-- Lines that are the same but for their numbers. -/
structure SourceLine.Alike (N : Nat → Nat → Prop) (l m : SourceLine) : Prop where
  number : N l.number m.number
  text : l.text = m.text

/-- Blocks that are the same but for the numbers of their lines. -/
inductive Block.Alike (N : Nat → Nat → Prop) : Block → Block → Prop
  | directive {l m : SourceLine} : l.Alike N m → Alike N (.directive l) (.directive m)
  | loop {l m : SourceLine} {ls ms : List SourceLine} :
    l.Alike N m → List.Forall₂ (SourceLine.Alike N) ls ms → Alike N (.loop l ls) (.loop m ms)
  | data {l m : SourceLine} {ls ms : List SourceLine} :
    l.Alike N m → List.Forall₂ (SourceLine.Alike N) ls ms → Alike N (.data l ls) (.data m ms)

section Alike

variable {N : Nat → Nat → Prop} {r s : Record} {l m : SourceLine}

theorem SourceLine.Alike.refl (hN : ∀ n, N n n) (l : SourceLine) : l.Alike N l :=
  ⟨hN l.number, rfl⟩

theorem Record.Alike.refl (hN : ∀ n, N n n) (r : Record) : r.Alike N r :=
  ⟨hN r.line, rfl, rfl⟩

theorem Block.Alike.refl (hN : ∀ n, N n n) (b : Block) : b.Alike N b := by
  have hlines (ls : List SourceLine) : List.Forall₂ (SourceLine.Alike N) ls ls :=
    List.forall₂_same.2 fun l _ => .refl hN l
  cases b with
  | directive l => exact .directive (.refl hN l)
  | loop header body => exact .loop (.refl hN header) (hlines body)
  | data header rows => exact .data (.refl hN header) (hlines rows)

theorem SourceLine.Alike.record (h : l.Alike N m) (store : Store) :
    (l.record store).Alike N (m.record store) where
  line := h.number
  tokens := by simp only [SourceLine.record, Record.ofLine, h.text]
  text := h.text

theorem Record.Alike.bind (h : r.Alike N s) (placeholder value : String) :
    (r.bind placeholder value).Alike N (s.bind placeholder value) where
  line := h.line
  tokens := by simp only [Record.bind, h.tokens]
  text := by simp only [Record.bind, h.text]

theorem Record.Alike.eq (h : r.Alike Eq s) : r = s := by
  obtain ⟨line, tokens, text⟩ := r
  obtain ⟨rfl, rfl, rfl⟩ := h
  rfl

/-- What is read off the tokens alone is the same. -/
theorem Record.Alike.congr {α : Type*} (h : r.Alike N s) (f : Record → α)
    (hf : ∀ r, f r = f ⟨0, r.tokens, ""⟩) : f r = f s := by
  rw [hf r, hf s, h.tokens]

theorem Record.Alike.keyword (h : r.Alike N s) : r.keyword = s.keyword :=
  h.congr _ fun _ => rfl

theorem Record.Alike.header (h : r.Alike N s) :
    Loop.Header.ofRecord r = Loop.Header.ofRecord s :=
  h.congr _ fun _ => rfl

theorem Record.Alike.target (h : r.Alike N s) : Data.target r = Data.target s :=
  h.congr _ fun _ => rfl

theorem Data.contents_congr {rows rows' : List SourceLine}
    (h : List.Forall₂ (SourceLine.Alike N) rows rows') :
    Data.contents rows = Data.contents rows' := by
  have htexts : rows.filterMap (fun l => Data.row? l.text) =
      rows'.filterMap (fun l => Data.row? l.text) := by
    induction h with
    | nil => rfl
    | cons hl _ ih => simp only [List.filterMap_cons, hl.text, ih]
  rw [Data.contents, Data.contents, htexts]

theorem Record.Alike.runAssignment (h : r.Alike N s) (w : World φ) :
    runAssignment r w = DeckScript.runAssignment s w :=
  h.congr (fun r => DeckScript.runAssignment r w) fun _ => rfl

end Alike

/-! ## Steps side by side -/

variable [FileStore φ]

/-- What the relations `S` on states and `O` on outcomes have to satisfy for two runs to stay in
step where neither files nor random numbers matter. The first run may be deeper in included files
than the second, but then the limit must put it out of step for good when it meets the limit
first. -/
structure Accord (env : Environment) (N : Nat → Nat → Prop) (S : World φ → World φ → Prop)
    (O : Outcome φ → Outcome φ → Prop) : Prop where
  number (n : Nat) : N n n
  ask {keyword : String} {d : Directive} : env.vocabulary.get? keyword = some d →
    ∀ {r s : Record}, r.Alike N s → ∀ store, d.ask store r = d.ask store s
  store {w v : World φ} : S w v → w.store = v.store
  note {w v : World φ} : S w v → ∀ e, S (w.note e) (v.note e)
  trace {w v : World φ} {l m : Nat} : S w v → N l m → ∀ tokens,
    S (w.note (.traced l tokens)) (v.note (.traced m tokens))
  blame {w v : World φ} {l m : Nat} : S w v → N l m → ∀ fault,
    S (w.blame l fault) (v.blame m fault)
  enter {w v : World φ} : S w v → ∀ name, S (w.enter name) (v.enter name)
  leave {o p : Outcome φ} {name : String} {ws vs : List String} : O o p →
    o.world.includes = name :: ws → p.world.includes = name :: vs →
    O (o.map World.leave) (p.map World.leave)
  shallow {w v : World φ} : S w v → env.includeLimit ≤ v.includes.length →
    env.includeLimit ≤ w.includes.length
  deep {w v : World φ} : S w v → env.includeLimit ≤ w.includes.length →
    env.includeLimit ≤ v.includes.length ∨
      ∀ line name p, O (.finished (w.blame line (.depth name env.includeLimit))) p
  finished {w v : World φ} : S w v → O (.finished w) (.finished v)
  write {w v : World φ} : S w v → ∀ data, O (w.write data) (v.write data)
  andThen {o p : Outcome φ} {f g : Step φ} : Advances f → Advances g → O o p →
    (∀ w v, S w v → O (f w) (g v)) → O (o.andThen f) (p.andThen g)

/-- Two steps that only go on from their states and take related states to related outcomes. -/
structure InStep (S : World φ → World φ → Prop) (O : Outcome φ → Outcome φ → Prop)
    (f g : Step φ) : Prop where
  left : Advances f
  right : Advances g
  related {w v : World φ} : S w v → O (f w) (g v)

/-- Two attempts whose outcomes are related once a fault has gone into the report. -/
def Attempt.InStep (N : Nat → Nat → Prop) (O : Outcome φ → Outcome φ → Prop)
    (a b : Attempt φ) : Prop :=
  ∀ l m, N l m → O (a.settle l) (b.settle m)

omit [FileStore φ] in
theorem Attempt.inStep_outcome {N : Nat → Nat → Prop} {O : Outcome φ → Outcome φ → Prop}
    {o p : Outcome φ} (hO : O o p) : (Attempt.outcome o).InStep N O (.outcome p) :=
  fun _ _ _ => hO

/-- Replace a file; a refusal is a fault. -/
def World.replaceFile (w : World φ) (name contents : String) : Attempt φ :=
  match w.save? name contents with
  | (w, .error reason) => .fault (.file name reason) w
  | (w, .ok files) => .done { w with files }

/-- Open a file and go on with its contents; a refusal is a fault. -/
def World.withFile (w : World φ) (name : String) (f : String → Step φ) : Attempt φ :=
  match w.open? name with
  | (w, .error reason) => .fault (.file name reason) w
  | (w, .ok contents) => .outcome (f contents w)

/-- Who opens a file and goes on goes on behind the opening. -/
theorem World.precedes_withFile {f : String → Step φ} (hf : ∀ contents, Advances (f contents))
    (w : World φ) (name : String) :
    (w.note (.opened name)).Precedes (w.withFile name f).state := by
  rw [withFile, open?]
  cases FileStore.read w.files name with
  | error reason => exact .refl _
  | ok contents => exact hf contents _

/-- What the relations have to satisfy for two runs to stay in step. Of a file that is opened both
runs read the same, and programs answer the same to both, unless the first one is lost from there
on. -/
structure Coupling (env : Environment) (N : Nat → Nat → Prop) (S : World φ → World φ → Prop)
    (O : Outcome φ → Outcome φ → Prop) : Prop extends Accord env N S O where
  set {w v : World φ} : S w v → ∀ store, S { w with store } { v with store }
  assign {w v : World φ} : S w v → ∀ r, (runAssignment r w).InStep N O (runAssignment r v)
  read {w v : World φ} : S w v → ∀ name,
    FileStore.read w.files name = FileStore.read v.files name ∨
      ∀ o p, (w.note (.opened name)).Precedes o.world → O o p
  save {w v : World φ} : S w v → ∀ name contents,
    (w.replaceFile name contents).InStep N O (v.replaceFile name contents)
  call {w v : World φ} : S w v → ∀ command,
    (w.call? env.runner command).2 = (v.call? env.runner command).2 ∨
      ∀ o p, (w.note (.called command)).Precedes o.world → O o p

namespace Accord

variable {env : Environment} {N : Nat → Nat → Prop} {S : World φ → World φ → Prop}
  {O : Outcome φ → Outcome φ → Prop} (h : Accord env N S O)
include h

theorem inStep_fault {w v : World φ} (hS : S w v) (fault : Fault) :
    (Attempt.fault fault w).InStep N O (.fault fault v) :=
  fun _ _ hN => h.finished (h.blame hS hN fault)

theorem announce {r s : Record} (hrs : r.Alike N s) {w v : World φ} (hS : S w v) :
    S (announce env r w) (announce env s v) := by
  rw [DeckScript.announce, DeckScript.announce, hrs.tokens]
  split
  · exact h.trace hS hrs.line _
  · exact hS

theorem runSteps {ss ts : List (Step φ)} (hsteps : List.Forall₂ (InStep S O) ss ts) :
    InStep S O (runSteps ss) (runSteps ts) := by
  induction hsteps with
  | nil => exact ⟨World.Precedes.refl, World.Precedes.refl, h.finished⟩
  | cons hst _ ih =>
    refine ⟨fun w => ?_, fun v => ?_, fun {w v} hS => ?_⟩
    · exact Outcome.precedes_andThen (hst.left w) ih.left
    · exact Outcome.precedes_andThen (hst.right v) ih.right
    · exact h.andThen ih.left ih.right (hst.related hS) fun w v hS => ih.related hS

theorem runSteps_map {α β : Type*} {f : α → Step φ} {g : β → Step φ} {as : List α} {bs : List β}
    (hfg : List.Forall₂ (fun a b => InStep S O (f a) (g b)) as bs) :
    InStep S O (DeckScript.runSteps (as.map f)) (DeckScript.runSteps (bs.map g)) := by
  apply h.runSteps
  rw [List.forall₂_map_left_iff, List.forall₂_map_right_iff]
  exact hfg

end Accord

namespace Coupling

variable {env : Environment} {N : Nat → Nat → Prop} {S : World φ → World φ → Prop}
  {O : Outcome φ → Outcome φ → Prop} (h : Coupling env N S O)
include h

theorem withFile {f g : String → Step φ} (hfg : ∀ contents, InStep S O (f contents) (g contents))
    {w v : World φ} (hS : S w v) (name : String) :
    (w.withFile name f).InStep N O (v.withFile name g) := by
  rcases h.read hS name with hsame | hlost
  · rw [World.withFile, World.withFile, World.open?, World.open?, hsame]
    cases FileStore.read v.files name with
    | error reason => exact h.inStep_fault (h.note hS _) _
    | ok contents => exact Attempt.inStep_outcome ((hfg contents).related (h.note hS _))
  · intro l m _
    have hopening := w.precedes_withFile (fun contents => (hfg contents).left) name
    exact hlost _ _ (Attempt.precedes_settle hopening l)

theorem runSource {each each' : String → Step φ}
    (heach : ∀ value, InStep S O (each value) (each' value)) (source : Loop.Source)
    {w v : World φ} (hS : S w v) :
    (runSource each source w).InStep N O (runSource each' source v) := by
  have hvalues (values : List String) :
      InStep S O (DeckScript.runSteps (values.map each)) (DeckScript.runSteps (values.map each')) :=
    h.runSteps_map (List.forall₂_same.2 fun value _ => heach value)
  cases source with
  | range first last step =>
    rw [DeckScript.runSource, DeckScript.runSource, runRange_eq_runSteps, runRange_eq_runSteps]
    exact Attempt.inStep_outcome ((hvalues _).related hS)
  | items tokens =>
    rw [DeckScript.runSource, DeckScript.runSource, runValues_eq_runSteps, runValues_eq_runSteps]
    exact Attempt.inStep_outcome ((hvalues _).related hS)
  | file name =>
    refine h.withFile (f := fun contents => runValues each (fileValues contents))
      (g := fun contents => runValues each' (fileValues contents)) (fun contents => ?_) hS name
    rw [funext (runValues_eq_runSteps each _), funext (runValues_eq_runSteps each' _)]
    exact hvalues _

/-! ## Runs side by side -/

variable {exec exec' : Record → Step φ}
  (hexec : ∀ {r s : Record}, r.Alike N s → InStep S O (exec r) (exec' s))
include hexec

theorem runRecords {rs ss : List Record} (hrs : List.Forall₂ (Record.Alike N) rs ss) :
    InStep S O (runRecords exec rs) (runRecords exec' ss) := by
  rw [funext (runRecords_eq_runSteps exec rs), funext (runRecords_eq_runSteps exec' ss)]
  exact h.runSteps_map (hrs.imp fun _ _ hr => hexec hr)

theorem advances_left (r : Record) : Advances (exec r) := (hexec (.refl h.number r)).left

theorem advances_right (r : Record) : Advances (exec' r) := (hexec (.refl h.number r)).right

theorem runLoop {header header' : SourceLine} {body body' : List SourceLine}
    (hheader : header.Alike N header') (hbody : List.Forall₂ (SourceLine.Alike N) body body')
    {w v : World φ} (hS : S w v) :
    (runLoop exec header body w).InStep N O (runLoop exec' header' body' v) := by
  rw [DeckScript.runLoop, DeckScript.runLoop, h.store hS, (hheader.record v.store).header]
  cases Loop.Header.ofRecord (header'.record v.store) with
  | error fault => exact h.inStep_fault hS fault
  | ok loop =>
    -- Both bodies are bound to the same values, so their records stay alike.
    refine h.runSource (fun value => h.runRecords hexec ?_) loop.source hS
    rw [List.map_map, List.map_map, List.forall₂_map_left_iff, List.forall₂_map_right_iff]
    exact hbody.imp fun _ _ hl => (hl.record v.store).bind loop.placeholder value

omit hexec in
theorem runData {header header' : SourceLine} {rows rows' : List SourceLine}
    (hheader : header.Alike N header') (hrows : List.Forall₂ (SourceLine.Alike N) rows rows')
    {w v : World φ} (hS : S w v) :
    (runData header rows w).InStep N O (runData header' rows' v) := by
  rw [DeckScript.runData, DeckScript.runData, h.store hS, (hheader.record v.store).target,
    Data.contents_congr hrows]
  cases Data.target (header'.record v.store) with
  | error fault => exact h.inStep_fault hS fault
  | ok name => exact h.save hS name (Data.contents rows')

theorem runBlock {b c : Block} (hbc : b.Alike N c) :
    InStep S O (runBlock exec b) (runBlock exec' c) := by
  refine ⟨advances_runBlock (h.advances_left hexec) b,
    advances_runBlock (h.advances_right hexec) c, fun {w v} hS => ?_⟩
  cases hbc with
  | directive hl =>
    rw [DeckScript.runBlock, DeckScript.runBlock, h.store hS]
    exact (hexec (hl.record v.store)).related hS
  | loop hheader hbody => exact h.runLoop hexec hheader hbody hS _ _ hheader.number
  | data hheader hrows => exact h.runData hheader hrows hS _ _ hheader.number

theorem runBlocks {bs cs : List Block} (hbs : List.Forall₂ (Block.Alike N) bs cs) :
    InStep S O (runBlocks exec bs) (runBlocks exec' cs) := by
  rw [funext (runBlocks_eq_runSteps exec bs), funext (runBlocks_eq_runSteps exec' cs)]
  exact h.runSteps_map (hbs.imp fun _ _ hb => h.runBlock hexec hb)

theorem runText (text : String) : InStep S O (runText exec text) (runText exec' text) :=
  h.runBlocks hexec (List.forall₂_same.2 fun b _ => .refl h.number b)

theorem runCell {line line' : Nat} (hline : N line line') (place : Grid.Cursor × String) :
    InStep S O (runCell exec line place) (runCell exec' line' place) := by
  refine ⟨advances_runCell (h.advances_left hexec) line place,
    advances_runCell (h.advances_right hexec) line' place, fun {w v} hS => ?_⟩
  have hcell : (place.1.cell w.store line place.2).Alike N (place.1.cell v.store line' place.2) :=
    ⟨hline, by rw [h.store hS]; rfl, rfl⟩
  have hlength : (place.1.cell w.store line place.2).length =
      (place.1.cell v.store line' place.2).length := hcell.congr _ fun _ => rfl
  simp only [DeckScript.runCell, hlength]
  split
  · exact (hexec hcell).related hS
  · exact h.finished hS

theorem runGrid {line line' : Nat} (hline : N line line') (layout : Grid.Layout)
    (c : Grid.Cursor) (texts : List String) :
    InStep S O (runGrid exec line layout c texts) (runGrid exec' line' layout c texts) := by
  rw [funext (runGrid_eq_runSteps exec line layout c texts),
    funext (runGrid_eq_runSteps exec' line' layout c texts)]
  exact h.runSteps_map (List.forall₂_same.2 fun place _ => h.runCell hexec hline place)

/-! ## Records side by side -/

/-- The lines of an included file, between entering and leaving it. -/
theorem runFile (name contents : String) :
    InStep S O (fun w => (DeckScript.runText exec contents (w.enter name)).map World.leave)
      (fun v => (DeckScript.runText exec' contents (v.enter name)).map World.leave) := by
  have hinside := h.runText hexec contents
  refine ⟨fun w => ?_, fun v => ?_, fun {w v} hS => ?_⟩
  · rw [Outcome.world_map]
    exact (hinside.left _).leave
  · rw [Outcome.world_map]
    exact (hinside.right _).leave
  · exact h.leave (hinside.related (h.enter hS name)) (hinside.left _).includes
      (hinside.right _).includes

theorem runInclude (name : String) {w v : World φ} (hS : S w v) :
    (runInclude env exec name w).InStep N O (runInclude env exec' name v) := by
  intro l m hN
  rw [DeckScript.runInclude, DeckScript.runInclude]
  by_cases hw : env.includeLimit ≤ w.includes.length
  -- Either both runs meet the limit, or the first one is out of step from here on.
  · rw [if_pos hw]
    rcases h.deep hS hw with hv | hany
    · rw [if_pos hv]
      exact h.inStep_fault hS _ l m hN
    · exact hany l name _
  · rw [if_neg hw, if_neg fun hv => hw (h.shallow hS hv)]
    exact h.withFile (h.runFile hexec name) hS name l m hN

omit hexec in
theorem runChart (command : List String) {w v : World φ} (hS : S w v) :
    (runChart env command w).InStep N O (runChart env command v) := by
  rcases h.call hS command with hsame | hlost
  · simp only [World.call?] at hsame
    simp only [DeckScript.runChart, World.call?, hsame]
    cases env.runner.answer (FileStore.read v.files) v.calls command with
    | error reason => exact h.inStep_fault (h.note hS _) _
    | ok printed => exact Attempt.inStep_outcome (h.write (h.note hS _) _)
  · intro l m _
    exact hlost _ _ (Attempt.precedes_settle (precedes_runChart env command w) l)

theorem fulfil {line line' : Nat} (hline : N line line') (request : Request) {w v : World φ}
    (hS : S w v) :
    (fulfil env exec line request w).InStep N O (fulfil env exec' line' request v) := by
  cases request with
  | emit elements => exact Attempt.inStep_outcome (h.write hS _)
  | enter file => exact h.runInclude hexec file hS
  | fillGrid file layout =>
    exact h.withFile (fun contents => h.runGrid hexec hline layout _ _) hS file
  | chart command => exact h.runChart command hS
  | set name value =>
    simp only [DeckScript.fulfil, h.store hS]
    exact Attempt.inStep_outcome (h.finished (h.set hS _))
  | run text => exact Attempt.inStep_outcome ((h.runText hexec text).related hS)

/-- A record is carried out in step if the records nested in it are. -/
theorem execute {r s : Record} (hrs : r.Alike N s) {w v : World φ} (hS : S w v) :
    (execute env exec r w).InStep N O (execute env exec' s v) := by
  rw [DeckScript.execute, DeckScript.execute, hrs.keyword, h.store hS]
  cases hd : env.vocabulary.get? s.keyword with
  | none =>
    rw [← hrs.runAssignment]
    exact h.assign hS r
  | some d =>
    simp only [h.ask hd hrs]
    cases d.ask v.store s with
    | error fault => exact h.inStep_fault hS fault
    | ok request => exact h.fulfil hexec hrs.line request hS

omit hexec in
/-- With one level more on both sides, records are still carried out in step. -/
theorem dispatch_succ {n m : Nat}
    (hnested : ∀ {r s : Record}, r.Alike N s → InStep S O (dispatch env n r) (dispatch env m s))
    {r s : Record} (hrs : r.Alike N s) :
    InStep S O (dispatch env (n + 1) r) (dispatch env (m + 1) s) where
  left := advances_dispatch env (n + 1) r
  right := advances_dispatch env (m + 1) s
  related hS := h.execute hnested hrs (h.announce hrs hS) _ _ hrs.line

end Coupling

end DeckScript
