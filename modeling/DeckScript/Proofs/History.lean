import DeckScript.Proofs.BlockLines
import DeckScript.Proofs.Nesting
import DeckScript.Proofs.OwnFaults

/-!
# The acts of a run

A run carries out records, and it carries out the headers of loops and data blocks. These are its
acts, and here they are listed in the order in which they happen, each with the state in which it
does. A record that nests others comes in front of them.

What an act does by itself, without the acts that it nests, is little: a fault goes into the report,
or a variable is assigned, or something is written.

## Main definitions

* `Act` — a record or the header of a block, in the state in which it is carried out
* `acts`, `history` — the acts of a record and of a whole run, in order
* `Act.fault?`, `Act.Does` — the fault of an act, and what it does by itself
* `Call.linesRead` — the lines of files and texts that a call reads

## Main results

* `exists_of_mem_blockActs`, `Call.exists_of_mem_acts` — where the acts of a run come from
* `Act.fault?_of_fault`, `Act.fault?_of_outcome` — an attempt has a fault exactly if its act has it
-/

namespace DeckScript

open Relation

variable {φ : Type}

/-! ## Acts in order -/

/-- What a run carries out, in the state in which it does: a record, or the header of a block. -/
inductive Act (φ : Type) where
  | call (call : Call φ)
  | loop (header : SourceLine) (body : List SourceLine) (world : World φ)
  | data (header : SourceLine) (rows : List SourceLine) (world : World φ)

namespace Act

/-- The state in which an act is carried out. -/
def world : Act φ → World φ
  | call p => p.world
  | loop _ _ w => w
  | data _ _ w => w

/-- The number of the line that an act carries out. -/
def line : Act φ → Nat
  | call p => p.record.line
  | loop header _ _ => header.number
  | data header _ _ => header.number

end Act

/-- The acts of items that are carried out in order, each after the one before it is finished. -/
def collect {α : Type*} (step : α → Step φ) (acts : α → World φ → List (Act φ)) :
    List α → World φ → List (Act φ)
  | [], _ => []
  | a :: rest, w =>
    acts a w ++
      match step a w with
      | .finished u => collect step acts rest u
      | .refused _ | .exhausted _ => []

section Collect

variable {α : Type*} {acts : α → World φ → List (Act φ)} {items : List α} {a : α} {w v : World φ}
  {x : Act φ}

/-- The acts of an item follow when the items in front of it are finished. -/
theorem mem_collect {step : α → Step φ} {before after : List α}
    (hbefore : runSteps (before.map step) w = .finished v) (h : x ∈ acts a v) :
    x ∈ collect step acts (before ++ a :: after) w := by
  induction before generalizing w with
  | nil =>
    cases hbefore
    exact List.mem_append_left _ h
  | cons b rest ih =>
    rw [List.map_cons, runSteps_cons] at hbefore
    rw [List.cons_append, collect]
    cases hstep : step b w with
    | finished u =>
      rw [hstep] at hbefore
      exact List.mem_append_right _ (ih hbefore)
    | refused u | exhausted u =>
      rw [hstep] at hbefore
      cases hbefore

theorem exists_of_mem_collect (step : Nat → α → Step φ) {n : Nat}
    (h : x ∈ collect (step n) acts items w) :
    ∃ a v, ReachedBefore step items w a v ∧ x ∈ acts a v := by
  suffices hsplit : ∃ before a after v, items = before ++ a :: after ∧
      runSteps (before.map (step n)) w = .finished v ∧ x ∈ acts a v by
    obtain ⟨before, a, after, v, hitems, hfinished, hx⟩ := hsplit
    exact ⟨a, v, ⟨before, after, n, hitems, hfinished⟩, hx⟩
  induction items generalizing w with
  | nil => cases h
  | cons a rest ih =>
    rw [collect] at h
    rcases List.mem_append.1 h with h | h
    · exact ⟨[], a, rest, w, rfl, rfl, h⟩
    · cases hstep : step n a w with
      | finished u =>
        rw [hstep] at h
        obtain ⟨before, b, after, v, rfl, hfinished, hx⟩ := ih h
        refine ⟨a :: before, b, after, v, rfl, ?_, hx⟩
        rw [List.map_cons, runSteps_cons, hstep, Outcome.finished_andThen, hfinished]
      | refused u | exhausted u =>
        rw [hstep] at h
        cases h

/-- If all items end with `n` levels, so do those in front of one that is reached, and so does that
one. -/
theorem ReachedBefore.of_ends {step : Nat → α → Step φ}
    (hstep : ∀ {n m : Nat}, n ≤ m → ∀ a w, Unless (step n a w) (step m a w)) {n : Nat}
    (h : ReachedBefore step items w a v)
    (hends : (runSteps (items.map (step n)) w).isExhausted = false) :
    (step n a v).isExhausted = false ∧
      ∃ before after, items = before ++ a :: after ∧
        runSteps (before.map (step n)) w = .finished v := by
  have ha : (step n a v).isExhausted = false := by
    by_contra hexhausted
    rw [Bool.not_eq_false] at hexhausted
    rw [h.isExhausted hstep hexhausted] at hends
    cases hends
  obtain ⟨before, after, m, rfl, hfinished⟩ := h
  refine ⟨ha, before, after, rfl, ?_⟩
  rw [List.map_append, runSteps_append] at hends
  have hbefore : (runSteps (before.map (step n)) w).isExhausted = false := by
    by_contra hexhausted
    rw [Bool.not_eq_false] at hexhausted
    rw [Outcome.isExhausted_andThen hexhausted] at hends
    cases hends
  -- The items in front are finished with `m` levels, and they end with `n`. So they end alike.
  rcases Nat.le_total n m with hnm | hmn
  · rw [← hfinished]
    exact ((runSteps_unless hstep hnm before w).eq hbefore).symm
  · have hunless := runSteps_unless hstep hmn before w
    rw [hfinished] at hunless
    exact hunless.eq rfl

/-- An item that is reached has its acts among those of all items, if these end. -/
theorem ReachedBefore.mem_collect {step : Nat → α → Step φ}
    (hstep : ∀ {n m : Nat}, n ≤ m → ∀ a w, Unless (step n a w) (step m a w)) {n : Nat}
    (h : ReachedBefore step items w a v)
    (hends : (runSteps (items.map (step n)) w).isExhausted = false) (hx : x ∈ acts a v) :
    x ∈ collect (step n) acts items w := by
  obtain ⟨-, before, after, rfl, hbefore⟩ := h.of_ends hstep hends
  exact DeckScript.mem_collect hbefore hx

end Collect

variable [FileStore φ]

/-- The acts of a block. -/
def Block.acts (exec : Record → Step φ) (acts : Record → World φ → List (Act φ)) :
    Block → World φ → List (Act φ)
  | .directive l, w => acts (l.record w.store) w
  | .loop header body, w =>
    .loop header body w ::
      match loopRecords header body w with
      | (u, .ok records) => collect exec acts records u
      | (_, .error _) => []
  | .data header rows, w => [.data header rows w]

/-- The acts of a list of blocks. -/
def blockActs (exec : Record → Step φ) (acts : Record → World φ → List (Act φ)) :
    List Block → World φ → List (Act φ) :=
  collect (runBlock exec) (Block.acts exec acts)

omit [FileStore φ] in
/-- The acts of one line of a grid. -/
def cellActs (acts : Record → World φ → List (Act φ)) (line : Nat)
    (place : Grid.Cursor × String) (w : World φ) : List (Act φ) :=
  let cell := place.1.cell w.store line place.2
  if Grid.leastTokens ≤ cell.length then acts cell w else []

/-- The acts that a request nests. -/
def nestedActs (env : Environment) (exec : Record → Step φ)
    (acts : Record → World φ → List (Act φ)) (line : Nat) (request : Request) (w : World φ) :
    List (Act φ) :=
  match request with
  | .enter name =>
    if env.includeLimit ≤ w.includes.length then []
    else
      match w.open? name with
      | (_, .error _) => []
      | (w, .ok contents) =>
        blockActs exec acts (Source.ofText contents).blocks (w.enter name)
  | .fillGrid file layout =>
    match w.open? file with
    | (_, .error _) => []
    | (w, .ok contents) =>
      collect (runCell exec line) (cellActs acts line)
        (layout.places layout.start (Text.lines contents)) w
  | .run text => blockActs exec acts (Source.ofText text).blocks w
  | .emit _ | .chart _ | .set _ _ => []

/-- The acts of a record with so many levels of nested records: the record itself, and then what it
nests. -/
def acts (env : Environment) : Nat → Record → World φ → List (Act φ)
  | 0, _, _ => []
  | n + 1, r, w =>
    .call ⟨r, w⟩ ::
      match env.vocabulary.get? r.keyword with
      | none => []
      | some d =>
        match d.ask w.store r with
        | .error _ => []
        | .ok request => nestedActs env (dispatch env n) (acts env n) r.line request
            (announce env r w)

/-- The acts of a run. -/
def history (env : Environment) (levels : Nat) (source : Source) (w : World φ) : List (Act φ) :=
  blockActs (dispatch env levels) (acts env levels) source.blocks w.renew

/-! ## Where the acts come from -/

section Origins

variable {env : Environment} {n : Nat} {x : Act φ}

/-- An act of blocks is the header of one of them, or an act of a record that one of them carries
out. -/
theorem exists_of_mem_blockActs {bs : List Block} {w : World φ}
    (h : x ∈ blockActs (dispatch env n) (acts env n) bs w) :
    ∃ b u, ReachedBefore (fun n => runBlock (dispatch env n)) bs w b u ∧
      ((∃ header body, b = .loop header body ∧ x = .loop header body u) ∨
        (∃ header rows, b = .data header rows ∧ x = .data header rows u) ∨
        ∃ r v, b.Carries env u r v ∧ x ∈ acts env n r v) := by
  obtain ⟨b, u, hreached, hx⟩ :=
    exists_of_mem_collect (fun n => runBlock (dispatch env n)) h
  refine ⟨b, u, hreached, ?_⟩
  cases b with
  | directive l => exact .inr (.inr ⟨_, u, .directive l u, hx⟩)
  | data header rows => exact .inr (.inl ⟨header, rows, rfl, List.mem_singleton.1 hx⟩)
  | loop header body =>
    rcases List.mem_cons.1 hx with rfl | hx
    · exact .inl ⟨header, body, rfl, rfl⟩
    rcases hrecords : loopRecords header body u with ⟨v, fault | rs⟩
    · rw [hrecords] at hx
      cases hx
    · rw [hrecords] at hx
      obtain ⟨r, y, hr, hx⟩ := exists_of_mem_collect (dispatch env) hx
      exact .inr (.inr ⟨r, y, .loop hrecords hr, hx⟩)

/-- An act of a call is the call itself, an act of the file that the call includes, or an act of a
cell. -/
theorem Call.exists_of_mem_acts (hstandard : env.vocabulary = .standard) {p : Call φ}
    (h : x ∈ acts env (n + 1) p.record p.world) :
    x = .call p ∨
      (∃ name contents, p.Asks env (.enter name) ∧ p.world.includes.length < env.includeLimit ∧
        FileStore.read p.world.files name = .ok contents ∧
        x ∈ blockActs (dispatch env n) (acts env n) (Source.ofText contents).blocks
          ((p.opening env name).enter name)) ∨
      ∃ q, p.Cell env q ∧ x ∈ acts env n q.record q.world := by
  rcases List.mem_cons.1 h with rfl | h
  · exact .inl rfl
  refine .inr ?_
  cases hd : env.vocabulary.get? p.record.keyword with
  | none =>
    rw [hd] at h
    cases h
  | some d =>
    cases hask : d.ask p.world.store p.record with
    | error fault =>
      simp only [hd, hask] at h
      cases h
    | ok request =>
      have hasks : p.Asks env request := ⟨d, hd, hask⟩
      have hrequest : request.IsStandard := Vocabulary.isStandard_of_ask (hstandard ▸ hd) hask
      simp only [hd, hask] at h
      cases request with
      | set name value => exact hrequest.elim
      | run text => exact hrequest.elim
      | emit elements => cases h
      | chart command => cases h
      | enter name =>
        simp only [nestedActs, announce_includes, World.open?, announce_files] at h
        split at h
        · cases h
        · rename_i hlimit
          rw [Nat.not_le] at hlimit
          cases hread : FileStore.read p.world.files name with
          | error reason =>
            rw [hread] at h
            cases h
          | ok contents =>
            rw [hread] at h
            exact .inl ⟨name, contents, hasks, hlimit, hread, h⟩
      | fillGrid file layout =>
        simp only [nestedActs, World.open?, announce_files] at h
        cases hread : FileStore.read p.world.files file with
        | error reason =>
          rw [hread] at h
          cases h
        | ok contents =>
          rw [hread] at h
          obtain ⟨place, v, hreached, hx⟩ :=
            exists_of_mem_collect (fun n => runCell (dispatch env n) p.record.line) h
          rw [cellActs] at hx
          split at hx
          · rename_i hlength
            exact .inr ⟨⟨_, v⟩, .intro hasks hread hreached rfl hlength, hx⟩
          · cases hx

/-- The calls among the acts of a call are nested in it. -/
theorem reflTransGen_of_call_mem_acts (hstandard : env.vocabulary = .standard) {p q : Call φ}
    (h : .call q ∈ acts env n p.record p.world) : ReflTransGen (Call.Nests env) p q := by
  induction n generalizing p with
  | zero => cases h
  | succ n ih =>
    rcases Call.exists_of_mem_acts hstandard h with heq |
      ⟨name, contents, hasks, hlimit, hread, h⟩ | ⟨c, hcell, h⟩
    · cases heq
      exact .refl
    · obtain ⟨b, u, hreached, ⟨_, _, _, hx⟩ | ⟨_, _, _, hx⟩ | ⟨r, v, hcarries, h⟩⟩ :=
        exists_of_mem_blockActs h
      · cases hx
      · cases hx
      · exact .head (.inl (.intro (q := ⟨r, v⟩) hasks hlimit hread ⟨b, u, hreached, hcarries⟩))
          (ih h)
    · exact .head (.inr hcell) (ih h)

end Origins

/-! ## What an act does by itself -/

omit [FileStore φ] in
/-- The fault that an attempt found. -/
def Attempt.fault? : Attempt φ → Option Fault
  | fault f _ => some f
  | outcome _ => none

/-- The attempt to carry out an act, given how to carry out the records that it nests. -/
def Act.attempt (env : Environment) (exec : Record → Step φ) : Act φ → Attempt φ
  | call p => execute env exec p.record (announce env p.record p.world)
  | loop header body w => runLoop exec header body w
  | data header rows w => runData header rows w

/-- The fault of an act itself. It is found before anything that the act nests is carried out, so
nothing needs to be. -/
def Act.fault? (env : Environment) (a : Act φ) : Option Fault :=
  (a.attempt env fun _ w => .finished w).fault?

/-- A fault is the same however the nested records are carried out. -/
theorem Act.faultsFirst_attempt (env : Environment) (exec exec' : Record → Step φ) (a : Act φ) :
    Attempt.FaultsFirst a.world (a.attempt env exec) (a.attempt env exec') := by
  cases a with
  | call p => exact faultsFirst_dispatch exec exec' env p.record p.world
  | loop header body w => exact faultsFirst_runLoop exec exec' header body w
  | data header rows w => exact faultsFirst_runData header rows w

theorem Act.fault?_of_fault {env : Environment} {exec : Record → Step φ} {a : Act φ} {f : Fault}
    {v : World φ} (h : a.attempt env exec = .fault f v) :
    a.fault? env = some f ∧ a.world.OnlyAsked v := by
  obtain ⟨hasked, hidle⟩ := a.faultsFirst_attempt env exec (fun _ w => .finished w) f v h
  exact ⟨by rw [fault?, hidle]; rfl, hasked⟩

theorem Act.fault?_of_outcome {env : Environment} {exec : Record → Step φ} {a : Act φ}
    {o : Outcome φ} (h : a.attempt env exec = .outcome o) : a.fault? env = none := by
  rw [fault?]
  cases hidle : a.attempt env fun _ w => .finished w with
  | outcome o' => rfl
  | fault f v =>
    obtain ⟨-, hfault⟩ := a.faultsFirst_attempt env (fun _ w => .finished w) exec f v hidle
    rw [h] at hfault
    cases hfault

omit [FileStore φ] in
/-- The request nests other records, once it is found good. -/
def Request.IsNesting : Request → Prop
  | .enter _ | .fillGrid _ _ | .run _ => True
  | .emit _ | .chart _ | .set _ _ => False

/-- What an act without a fault of its own does by itself. -/
inductive Act.Effect (env : Environment) : Act φ → World φ → Prop
  /-- A record whose keyword is not in the vocabulary. -/
  | assign {p : Call φ} {v : World φ} : env.vocabulary.get? p.record.keyword = none →
    runAssignment p.record (announce env p.record p.world) = .done v → Effect env (.call p) v
  | emit {p : Call φ} {elements : List Markup.Element} : p.Asks env (.emit elements) →
    Effect env (.call p) ((announce env p.record p.world).emit elements).world
  | chart {p : Call φ} {command : List String} {printed : ByteArray} :
    p.Asks env (.chart command) → Effect env (.call p)
      (((announce env p.record p.world).note (.called command)).write
        (printed ++ "\n".toUTF8)).world
  | set {p : Call φ} {name value : String} : p.Asks env (.set name value) →
    Effect env (.call p)
      { announce env p.record p.world with store := p.world.store.insert name value }
  /-- A record that only nests others. -/
  | nest {p : Call φ} {request : Request} {v : World φ} : p.Asks env request →
    request.IsNesting → p.world.OnlyAsked v → Effect env (.call p) v
  | loop {header : SourceLine} {body : List SourceLine} {w v : World φ} : w.OnlyAsked v →
    Effect env (.loop header body w) v
  | save {header : SourceLine} {rows : List SourceLine} {w : World φ} {name contents : String}
    {files : φ} :
    Effect env (.data header rows w) { w.note (.saved name contents) with files }

/-- What an act does by itself. -/
inductive Act.Does (env : Environment) (a : Act φ) : World φ → Prop
  | fault {f : Fault} {v : World φ} : a.fault? env = some f → a.world.OnlyAsked v →
    Does env a (v.blame a.line f)
  | effect {v : World φ} : a.fault? env = none → a.Effect env v → Does env a v

theorem Act.does_of_fault {env : Environment} {exec : Record → Step φ} {a : Act φ} {f : Fault}
    {v : World φ} (h : a.attempt env exec = .fault f v) : a.Does env (v.blame a.line f) :=
  .fault (fault?_of_fault h).1 (fault?_of_fault h).2

theorem Act.does_of_outcome {env : Environment} {exec : Record → Step φ} {a : Act φ}
    {o : Outcome φ} {v : World φ} (h : a.attempt env exec = .outcome o) (heffect : a.Effect env v) :
    a.Does env v :=
  .effect (fault?_of_outcome h) heffect

/-- The attempt of a call that asks for something. -/
theorem Call.Asks.attempt_eq {env : Environment} {p : Call φ} {request : Request}
    (h : p.Asks env request) (exec : Record → Step φ) :
    (Act.call p).attempt env exec =
      fulfil env exec p.record.line request (announce env p.record p.world) := by
  obtain ⟨d, hd, hask⟩ := h
  rw [Act.attempt, execute, hd]
  simp only [announce_store, hask]

/-! ## The texts that a record reads -/

namespace Call

/-- What the directive of a call asks for. -/
def request? (env : Environment) (p : Call φ) : Option Request :=
  (env.vocabulary.get? p.record.keyword).bind fun d => (d.ask p.world.store p.record).toOption

omit [FileStore φ] in
theorem request?_eq_some_iff {env : Environment} {p : Call φ} {request : Request} :
    p.request? env = some request ↔ p.Asks env request := by
  rw [request?, Option.bind_eq_some_iff, Asks]
  refine exists_congr fun d => and_congr_right fun _ => ?_
  cases d.ask p.world.store p.record with
  | error f => simp [Except.toOption]
  | ok r => simp [Except.toOption]

/-- The lines that a call reads as part of the script or as lines of a grid. -/
def linesRead (env : Environment) (p : Call φ) : List String :=
  match p.request? env with
  | some (.enter file) =>
    match FileStore.read p.world.files file with
    | .ok contents => (Source.ofText contents).actLines.map SourceLine.text
    | .error _ => []
  | some (.fillGrid file _) =>
    match FileStore.read p.world.files file with
    | .ok contents => Text.lines contents
    | .error _ => []
  | some (.run text) => (Source.ofText text).actLines.map SourceLine.text
  | some (.emit _) | some (.chart _) | some (.set _ _) | none => []

variable {env : Environment} {p : Call φ}

theorem Asks.linesRead_enter {name contents : String} (h : p.Asks env (.enter name))
    (hread : FileStore.read p.world.files name = .ok contents) :
    p.linesRead env = (Source.ofText contents).actLines.map SourceLine.text := by
  simp only [linesRead, request?_eq_some_iff.2 h, hread]

theorem Asks.linesRead_fillGrid {file contents : String} {layout : Grid.Layout}
    (h : p.Asks env (.fillGrid file layout))
    (hread : FileStore.read p.world.files file = .ok contents) :
    p.linesRead env = Text.lines contents := by
  simp only [linesRead, request?_eq_some_iff.2 h, hread]

theorem Asks.linesRead_run {text : String} (h : p.Asks env (.run text)) :
    p.linesRead env = (Source.ofText text).actLines.map SourceLine.text := by
  simp only [linesRead, request?_eq_some_iff.2 h]

end Call

end DeckScript
