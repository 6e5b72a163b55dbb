import DeckScript.Proofs.History

/-!
# Accounting for a run

What is known of single acts adds up over a run. Lines, states and records may have to be good for
it: then every line that is read has to be good, and each record is made of good lines in a good
state. What the acts lead to is known for the run as a whole and for every first part of it, up to
the state of any of its acts.

The sum is taken here once, along the nesting of records. What is to be added up is left open.

## Main definitions

* `Accounting` — what is to be known of lines, states, records and stretches of a run
* `Accounting.Sound` — what has to be shown of it: single acts, and how records are made
* `Accounting.Accounts` — a stretch of a run is accounted for, and every first part of it
* `Accounting.ofLeads` — the accounting that asks nothing of lines, states and records

## Main results

* `Accounting.Sound.accounts_dispatch` — a record is accounted for, with all that it nests
* `Accounting.Sound.accounts_run` — and so is a run
-/

namespace DeckScript

variable {φ : Type}

/-- What is to be known of a run: of the lines that it reads, of its states and its records, and of
each stretch of it with the acts in between. -/
structure Accounting (φ : Type) where
  line : String → Prop
  state : World φ → Prop
  record : Record → Prop
  leads : World φ → List (Act φ) → World φ → Prop

/-- The lines that take up a place are lines of the grid. -/
theorem Grid.Layout.mem_of_mem_places {layout : Grid.Layout} {c : Grid.Cursor}
    {texts : List String} {place : Grid.Cursor × String} (h : place ∈ layout.places c texts) :
    place.2 ∈ texts := by
  induction texts generalizing c with
  | nil => cases h
  | cons text rest ih =>
    rw [places] at h
    split at h
    · exact List.mem_cons_of_mem text (ih h)
    · rcases List.mem_cons.1 h with rfl | hrest
      · exact List.mem_cons_self
      · exact List.mem_cons_of_mem text (ih hrest)

namespace Accounting

variable [FileStore φ] {A : Accounting φ} {env : Environment}

/-- What the acts read has good lines only. -/
def Reads (A : Accounting φ) (env : Environment) (as : List (Act φ)) : Prop :=
  ∀ p, .call p ∈ as → ∀ text ∈ p.linesRead env, A.line text

omit [FileStore φ] in
/-- A stretch of a run has good states and records only, and the acts in front of each of its states
lead up to it. -/
structure Covers (A : Accounting φ) (w : World φ) (as : List (Act φ)) (v : World φ) : Prop where
  state : A.state v
  leads : A.leads w as v
  inner : ∀ before a after, as = before ++ a :: after →
    A.state a.world ∧ A.leads w before a.world
  record : ∀ p, .call p ∈ as → A.record p.record

/-- From a good state, and with good lines, the stretch has good states and records only. -/
def Accounts (A : Accounting φ) (env : Environment) (w : World φ) (as : List (Act φ))
    (v : World φ) : Prop :=
  A.state w → A.Reads env as → A.Covers w as v

/-- What has to be shown of single acts and of single records. -/
structure Sound (A : Accounting φ) (env : Environment) : Prop where
  nil {w : World φ} : A.leads w [] w
  append {u v w : World φ} {as bs : List (Act φ)} :
    A.leads u as v → A.leads v bs w → A.leads u (as ++ bs) w
  /-- The list of included files may change between acts. -/
  shift {w : World φ} (includes : List String) :
    A.state w → A.state { w with includes } ∧ A.leads w [] { w with includes }
  act {a : Act φ} {v : World φ} : a.Does env v → A.state a.world →
    (∀ p, a = .call p → A.record p.record) → A.state v ∧ A.leads a.world [a] v
  directive {l : SourceLine} {w : World φ} :
    A.line l.text → A.state w → A.record (l.record w.store)
  body {header : SourceLine} {body : List SourceLine} {w u : World φ} {rs : List Record} :
    (∀ l ∈ header :: body, A.line l.text) → A.state w →
      loopRecords header body w = (u, .ok rs) → ∀ r ∈ rs, A.record r
  cell {c : Grid.Cursor} {line : Nat} {text : String} {w : World φ} :
    A.line text → A.state w → A.record (c.cell w.store line text)

theorem Reads.left {as bs : List (Act φ)} (h : A.Reads env (as ++ bs)) : A.Reads env as :=
  fun p hp => h p (List.mem_append_left bs hp)

theorem Reads.right {as bs : List (Act φ)} (h : A.Reads env (as ++ bs)) : A.Reads env bs :=
  fun p hp => h p (List.mem_append_right as hp)

namespace Sound

variable (hA : A.Sound env)
include hA

/-! ## Stretches one after the other -/

theorem covers_append {u v w : World φ} {as bs : List (Act φ)} (h : A.Covers u as v)
    (h' : A.Covers v bs w) : A.Covers u (as ++ bs) w where
  state := h'.state
  leads := hA.append h.leads h'.leads
  inner before a after hsplit := by
    -- The act is in the second stretch or in the first. It is the first of the second stretch if
    -- nothing of the first is left behind `before`.
    rcases List.append_eq_append_iff.1 hsplit with ⟨bs', rfl, hbs⟩ | ⟨as', has, htail⟩
    · obtain ⟨hstate, hleads⟩ := h'.inner bs' a after hbs
      exact ⟨hstate, hA.append h.leads hleads⟩
    · cases as' with
      | nil =>
        rw [List.append_nil] at has
        obtain ⟨hstate, hleads⟩ := h'.inner [] a after htail.symm
        have hboth := hA.append h.leads hleads
        rw [List.append_nil, has] at hboth
        exact ⟨hstate, hboth⟩
      | cons b rest =>
        obtain ⟨rfl, -⟩ := List.cons.inj htail
        exact h.inner before a rest has
  record p hp := (List.mem_append.1 hp).elim (h.record p) (h'.record p)

theorem accounts_nil (w : World φ) : A.Accounts env w [] w := by
  intro hw _
  exact ⟨hw, hA.nil, by simp, by simp⟩

theorem accounts_append {u v w : World φ} {as bs : List (Act φ)} (h : A.Accounts env u as v)
    (h' : A.Accounts env v bs w) : A.Accounts env u (as ++ bs) w := by
  intro hu hreads
  have hfirst := h hu hreads.left
  exact hA.covers_append hfirst (h' hfirst.state hreads.right)

theorem accounts_shift (w : World φ) (includes : List String) :
    A.Accounts env w [] { w with includes } := by
  intro hw _
  obtain ⟨hstate, hleads⟩ := hA.shift includes hw
  exact ⟨hstate, hleads, by simp, by simp⟩

theorem accounts_act {a : Act φ} {v : World φ} (h : a.Does env v)
    (hrecord : ∀ p, a = .call p → A.record p.record) : A.Accounts env a.world [a] v := by
  intro hw _
  obtain ⟨hstate, hleads⟩ := hA.act h hw hrecord
  refine ⟨hstate, hleads, ?_, ?_⟩
  · intro before b after hsplit
    obtain ⟨rfl, rfl, -⟩ : before = [] ∧ b = a ∧ after = [] := by
      cases before with
      | nil => simpa [eq_comm] using hsplit
      | cons c rest => simp at hsplit
    exact ⟨hw, hA.nil⟩
  · intro p hp
    exact hrecord p (List.mem_singleton.1 hp).symm

/-- An act, and then those that it nests. -/
theorem accounts_cons {a : Act φ} {as : List (Act φ)} {u v : World φ} (h : a.Does env u)
    (hrecord : ∀ p, a = .call p → A.record p.record) (hrest : A.Accounts env u as v) :
    A.Accounts env a.world (a :: as) v :=
  hA.accounts_append (hA.accounts_act h hrecord) hrest

theorem accounts_collect {α : Type*} {step : α → Step φ} {acts : α → World φ → List (Act φ)}
    {items : List α}
    (hitems : ∀ a ∈ items, ∀ w, A.Accounts env w (acts a w) (step a w).world) (w : World φ) :
    A.Accounts env w (collect step acts items w) (runSteps (items.map step) w).world := by
  induction items generalizing w with
  | nil => exact hA.accounts_nil w
  | cons a rest ih =>
    have hfirst := hitems a List.mem_cons_self w
    have hrest := ih fun b hb => hitems b (List.mem_cons_of_mem a hb)
    rw [collect, List.map_cons, runSteps_cons]
    cases hstep : step a w with
    | finished u =>
      rw [hstep] at hfirst
      exact hA.accounts_append hfirst (hrest u)
    | refused u | exhausted u =>
      rw [hstep] at hfirst
      exact hA.accounts_append hfirst (hA.accounts_nil u)

/-! ## Blocks, files and grids -/

section Nested

variable {exec : Record → Step φ} {acts : Record → World φ → List (Act φ)}
  (hexec : ∀ r w, A.record r → A.Accounts env w (acts r w) (exec r w).world)
include hexec

theorem accounts_block {b : Block} (hlines : ∀ l ∈ b.actLines, A.line l.text) (w : World φ) :
    A.Accounts env w (b.acts exec acts w) (runBlock exec b w).world := by
  intro hw
  cases b with
  | directive l => exact hexec _ w (hA.directive (hlines l List.mem_cons_self) hw) hw
  | data header rows =>
    suffices hdoes : (Act.data header rows w).Does env (runBlock exec (.data header rows) w).world
      from hA.accounts_act hdoes (by simp) hw
    have hattempt : (Act.data header rows w).attempt env exec = runData header rows w := rfl
    rcases hdata : runData header rows w with ⟨f, v⟩ | o
    · rw [runBlock, hdata]
      exact Act.does_of_fault (hattempt.trans hdata)
    · rw [runBlock, hdata]
      refine Act.does_of_outcome (hattempt.trans hdata) ?_
      rw [runData] at hdata
      split at hdata
      · cases hdata
      · simp only [World.save?] at hdata
        split at hdata
        · cases hdata
        · cases hdata
          rename_i heq
          obtain ⟨rfl, -⟩ := Prod.mk.inj heq
          exact .save
  | loop header body =>
    have hattempt := runLoop_eq exec header body w
    have hasked := w.onlyAsked_loopRecords header body
    rw [Block.acts, runBlock]
    rcases hrecords : loopRecords header body w with ⟨u, f | rs⟩
    · rw [hrecords] at hattempt
      rw [hattempt]
      exact hA.accounts_act (Act.does_of_fault (a := .loop header body w) hattempt) (by simp) hw
    · rw [hrecords] at hattempt hasked
      rw [hattempt]
      have hdoes : (Act.loop header body w).Does env u :=
        Act.does_of_outcome hattempt (.loop hasked)
      have hgood := hA.body hlines hw hrecords
      have hbody := hA.accounts_collect (fun r hr v => hexec r v (hgood r hr)) u
      simp only [Attempt.settle_outcome, runRecords_eq_runSteps]
      exact hA.accounts_cons hdoes (by simp) hbody hw

theorem accounts_blocks {bs : List Block} (hlines : ∀ b ∈ bs, ∀ l ∈ b.actLines, A.line l.text)
    (w : World φ) :
    A.Accounts env w (blockActs exec acts bs w) (runBlocks exec bs w).world := by
  rw [blockActs, runBlocks_eq_runSteps]
  exact hA.accounts_collect (fun b hb v => hA.accounts_block hexec (hlines b hb) v) w

theorem accounts_source {source : Source} (hlines : ∀ l ∈ source.actLines, A.line l.text)
    (w : World φ) :
    A.Accounts env w (blockActs exec acts source.blocks w) (runBlocks exec source.blocks w).world :=
  hA.accounts_blocks hexec
    (fun b hb l hl => hlines l (List.mem_flatMap.2 ⟨b, hb, hl⟩)) w

theorem accounts_cell {place : Grid.Cursor × String} (hline : A.line place.2) (line : Nat)
    (w : World φ) :
    A.Accounts env w (cellActs acts line place w) (runCell exec line place w).world := by
  intro hw
  rw [cellActs, runCell]
  split
  · exact hexec _ w (hA.cell hline hw) hw
  · exact hA.accounts_nil w hw

/-! ## Requests -/

section Calls

variable {p : Call φ} (hp : A.record p.record)
include hp

omit hexec in
theorem accounts_call {v : World φ} (h : (Act.call p).Does env v) :
    A.Accounts env p.world [.call p] v :=
  hA.accounts_act h fun _ hq => Act.call.inj hq ▸ hp

omit hexec in
theorem accounts_nest {request : Request} {v w : World φ} {as : List (Act φ)}
    (hattempt : ∃ o, (Act.call p).attempt env exec = .outcome o) (hasks : p.Asks env request)
    (hnests : request.IsNesting) (hasked : p.world.OnlyAsked v)
    (hrest : A.Reads env [.call p] → A.Accounts env v as w) :
    A.Accounts env p.world (.call p :: as) w := by
  intro hw hreads
  obtain ⟨o, ho⟩ := hattempt
  have hdoes : (Act.call p).Does env v := Act.does_of_outcome ho (.nest hasks hnests hasked)
  exact hA.accounts_cons hdoes (fun _ hq => Act.call.inj hq ▸ hp) (hrest hreads.left) hw hreads

theorem accounts_enter {name : String} (hasks : p.Asks env (.enter name)) :
    A.Accounts env p.world
      (.call p :: nestedActs env exec acts p.record.line (.enter name)
        (announce env p.record p.world))
      ((fulfil env exec p.record.line (.enter name)
        (announce env p.record p.world)).settle p.record.line).world := by
  have hattempt := hasks.attempt_eq exec
  by_cases hlimit : env.includeLimit ≤ p.world.includes.length
  · simp only [fulfil, runInclude, nestedActs, Call.announce_includes, if_pos hlimit] at hattempt ⊢
    exact hA.accounts_call hp (Act.does_of_fault hattempt)
  cases hread : FileStore.read p.world.files name with
  | error reason =>
    simp only [fulfil, runInclude, nestedActs, Call.announce_includes, if_neg hlimit, World.open?,
      Call.announce_files, hread] at hattempt ⊢
    exact hA.accounts_call hp (Act.does_of_fault hattempt)
  | ok contents =>
    simp only [fulfil, runInclude, nestedActs, Call.announce_includes, if_neg hlimit, World.open?,
      Call.announce_files, hread] at hattempt ⊢
    have hopening : p.world.OnlyAsked (p.opening env name) :=
      (p.world.onlyAsked_announce env p.record).trans (.note _ _)
    refine hA.accounts_nest hp ⟨_, hattempt⟩ hasks trivial hopening fun hreads => ?_
    have hlines : ∀ l ∈ (Source.ofText contents).actLines, A.line l.text := by
      intro l hl
      apply hreads p List.mem_cons_self
      rw [hasks.linesRead_enter hread]
      exact List.mem_map_of_mem hl
    -- On both sides of the file's own acts only the list of included files changes.
    have henter := hA.accounts_shift (p.opening env name) (name :: (p.opening env name).includes)
    have hinside := hA.accounts_source hexec hlines ((p.opening env name).enter name)
    have hleave := hA.accounts_shift
      (runBlocks exec (Source.ofText contents).blocks ((p.opening env name).enter name)).world
      (runBlocks exec (Source.ofText contents).blocks
        ((p.opening env name).enter name)).world.includes.tail
    have hfile := hA.accounts_append (hA.accounts_append henter hinside) hleave
    rw [List.nil_append, List.append_nil] at hfile
    rw [Attempt.settle_outcome, Outcome.world_map, runText]
    exact hfile

theorem accounts_fillGrid {file : String} {layout : Grid.Layout}
    (hasks : p.Asks env (.fillGrid file layout)) :
    A.Accounts env p.world
      (.call p :: nestedActs env exec acts p.record.line (.fillGrid file layout)
        (announce env p.record p.world))
      ((fulfil env exec p.record.line (.fillGrid file layout)
        (announce env p.record p.world)).settle p.record.line).world := by
  have hattempt := hasks.attempt_eq exec
  cases hread : FileStore.read p.world.files file with
  | error reason =>
    simp only [fulfil, nestedActs, World.open?, Call.announce_files, hread] at hattempt ⊢
    exact hA.accounts_call hp (Act.does_of_fault hattempt)
  | ok contents =>
    simp only [fulfil, nestedActs, World.open?, Call.announce_files, hread,
      runGrid_eq_runSteps] at hattempt ⊢
    have hopening : p.world.OnlyAsked (p.opening env file) :=
      (p.world.onlyAsked_announce env p.record).trans (.note _ _)
    refine hA.accounts_nest hp ⟨_, hattempt⟩ hasks trivial hopening fun hreads => ?_
    refine hA.accounts_collect (fun place hplace v => ?_) _
    refine hA.accounts_cell hexec ?_ p.record.line v
    apply hreads p List.mem_cons_self
    rw [hasks.linesRead_fillGrid hread]
    exact Grid.Layout.mem_of_mem_places hplace

theorem accounts_request {request : Request} (hasks : p.Asks env request) :
    A.Accounts env p.world
      (.call p :: nestedActs env exec acts p.record.line request (announce env p.record p.world))
      ((fulfil env exec p.record.line request
        (announce env p.record p.world)).settle p.record.line).world := by
  have hattempt := hasks.attempt_eq exec
  cases request with
  | enter name => exact hA.accounts_enter hexec hp hasks
  | fillGrid file layout => exact hA.accounts_fillGrid hexec hp hasks
  | emit elements =>
    exact hA.accounts_call hp (Act.does_of_outcome hattempt (.emit hasks))
  | chart command =>
    rw [fulfil] at hattempt ⊢
    rcases runChart_cases env command (announce env p.record p.world) with
      ⟨reason, h⟩ | ⟨printed, h⟩ <;> rw [h] at hattempt ⊢
    · exact hA.accounts_call hp (Act.does_of_fault hattempt)
    · exact hA.accounts_call hp (Act.does_of_outcome hattempt (.chart hasks))
  | set name value =>
    have hdoes := Act.does_of_outcome hattempt (.set hasks)
    rw [← Call.announce_store env p.record p.world] at hdoes
    exact hA.accounts_call hp hdoes
  | run text =>
    refine hA.accounts_nest hp ⟨_, hattempt⟩ hasks trivial
      (p.world.onlyAsked_announce env p.record) fun hreads => ?_
    refine hA.accounts_source hexec (fun l hl => ?_) _
    apply hreads p List.mem_cons_self
    rw [hasks.linesRead_run]
    exact List.mem_map_of_mem hl

end Calls

end Nested

/-! ## Records and runs -/

/-- A record is accounted for, with all that it nests. -/
theorem accounts_dispatch (n : Nat) {r : Record} (hr : A.record r) (w : World φ) :
    A.Accounts env w (acts env n r w) (dispatch env n r w).world := by
  -- What a record nests is carried out with one level less.
  induction n generalizing r w with
  | zero => exact hA.accounts_nil w
  | succ n ih =>
    have hexec : ∀ r w, A.record r →
        A.Accounts env w (acts env n r w) (dispatch env n r w).world := fun r w hr => ih hr w
    cases hd : env.vocabulary.get? r.keyword with
    | none =>
      have hattempt : (Act.call ⟨r, w⟩).attempt env (dispatch env n) =
          runAssignment r (announce env r w) := by rw [Act.attempt, execute, hd]
      simp only [acts, dispatch_succ, execute, hd]
      rcases runAssignment_eq r (announce env r w) with ⟨f, hfault⟩ | ⟨store, random, -, hdone⟩
      · rw [hfault] at hattempt ⊢
        exact hA.accounts_call hr (Act.does_of_fault hattempt)
      · rw [hdone] at hattempt ⊢
        exact hA.accounts_call hr (Act.does_of_outcome hattempt (.assign hd hdone))
    | some d =>
      cases hask : d.ask w.store r with
      | error f =>
        have hattempt : (Act.call ⟨r, w⟩).attempt env (dispatch env n) =
            .fault f (announce env r w) := by
          simp only [Act.attempt, execute, hd, Call.announce_store, hask]
        simp only [acts, dispatch_succ, execute, hd, Call.announce_store, hask]
        exact hA.accounts_call hr (Act.does_of_fault hattempt)
      | ok request =>
        have hasks : Call.Asks env ⟨r, w⟩ request := ⟨d, hd, hask⟩
        rw [hasks.dispatch_succ n, acts, hd]
        simp only [hask]
        exact hA.accounts_request hexec hr hasks

/-- A run is accounted for, if the lines of its script are good. -/
theorem accounts_run (levels : Nat) {source : Source}
    (hlines : ∀ l ∈ source.actLines, A.line l.text) (w : World φ) :
    A.Accounts env w.renew (history env levels source w) (run env levels source w).world :=
  hA.accounts_source (fun _ v hr => hA.accounts_dispatch levels hr v) hlines w.renew

end Sound

/-! ## Accounts of everything -/

/-- The accounting of what the acts lead to, with nothing asked of lines, states and records. -/
def ofLeads (leads : World φ → List (Act φ) → World φ → Prop) : Accounting φ where
  line _ := True
  state _ := True
  record _ := True
  leads := leads

section OfLeads

variable {leads : World φ → List (Act φ) → World φ → Prop}

theorem sound_ofLeads (hnil : ∀ w, leads w [] w)
    (happend : ∀ {u v w as bs}, leads u as v → leads v bs w → leads u (as ++ bs) w)
    (hshift : ∀ w includes, leads w [] { w with includes })
    (hact : ∀ {a v}, a.Does env v → leads a.world [a] v) : (ofLeads leads).Sound env where
  nil := hnil _
  append := happend
  shift includes _ := ⟨trivial, hshift _ includes⟩
  act h _ _ := ⟨trivial, hact h⟩
  directive _ _ := trivial
  body _ _ _ _ _ := trivial
  cell _ _ := trivial

theorem Sound.leads_dispatch (h : (ofLeads leads).Sound env) (n : Nat) (r : Record)
    (w : World φ) : leads w (acts env n r w) (dispatch env n r w).world :=
  (h.accounts_dispatch n (r := r) trivial w trivial fun _ _ _ _ => trivial).leads

theorem Sound.covers_run (h : (ofLeads leads).Sound env) (levels : Nat) (source : Source)
    (w : World φ) :
    (ofLeads leads).Covers w.renew (history env levels source w)
      (run env levels source w).world :=
  h.accounts_run levels (fun _ _ => trivial) w trivial fun _ _ _ _ => trivial

end OfLeads

end Accounting

end DeckScript
