import DeckScript.Proofs.History
import DeckScript.Proofs.Termination

/-!
# Where the acts of a run stand

While a run goes on, its script is being carried out, and with it files that include one another.
Each of these is a frame, from the state at its start to the state at its end. An act is performed
in one frame, and there it stands on a line: a directive on its own, a record of a loop on the line
of the body that it was made of, a cell on the line that fills the grid, and the header of a block
on itself.

## Main definitions

* `Frame` — a script or an included file that is being carried out
* `Frame.Performs` — an act is performed in a frame, and it stands on this line
* `Runs` — a frame of a run, with the name of its file
* `SourceLine.ActsIn`, `Source.openAt` — the lines on which acts may stand

## Main results

* `exists_performs_of_mem_history` — every act of a run is performed in one of its frames
* `Frame.Performs.exists_actsIn` — an act stands on a line of its frame, and on no row of data
* `Runs.head?_includes` — the innermost included file is that of the frame
* `Reaches.mem_history`, `reaches_of_call_mem_history` — the calls that a run reaches are those
  among its acts, if it ends
-/

namespace DeckScript

open Relation

/-! ## Lines that are carried out -/

/-- The lines of the open block that are carried out, if there is one. -/
def Block.openActLines (state : Option OpenBlock) : List SourceLine :=
  (state.map fun b => b.close.actLines).getD []

/-- The line is carried out in the block that is open in front of it: it has tokens and is no
comment, it is no row of data, and it does not end a loop. -/
def SourceLine.ActsIn (l : SourceLine) : Option OpenBlock → Prop
  | none => ∃ keyword, l.keyword? = some keyword
  | some (.loop _ _) => ∃ keyword, l.keyword? = some keyword ∧ keyword ≠ "efor"
  | some (.data _ _) => False

/-- The block that is open in front of a line with a number. -/
def Source.openAt (s : Source) (number : Nat) : Option OpenBlock :=
  (Block.split none (s.lines.take (number - 1))).2

namespace Block

/-- A line of a block was one of it before, or it is the line that is read. -/
theorem actsIn_step {state next : Option OpenBlock} {done : Option Block} {l m : SourceLine}
    (h : step state l = (next, done))
    (hm : m ∈ openActLines next ∨ ∃ b ∈ done, m ∈ b.actLines) :
    m ∈ openActLines state ∨ m = l ∧ l.ActsIn state := by
  cases state with
  | none =>
    rw [step] at h
    split at h
    · obtain ⟨rfl, rfl⟩ := Prod.mk.inj h
      simp [openActLines] at hm
    · rename_i keyword hkeyword
      refine .inr ⟨?_, keyword, hkeyword⟩
      split_ifs at h <;> obtain ⟨rfl, rfl⟩ := Prod.mk.inj h <;>
        simpa [openActLines, OpenBlock.close, actLines] using hm
  | some b =>
    cases b with
    | loop header body =>
      rw [step] at h
      split at h
      · obtain ⟨rfl, rfl⟩ := Prod.mk.inj h
        exact .inl (hm.resolve_right (by simp))
      · rename_i keyword hkeyword
        split_ifs at h with hefor <;> obtain ⟨rfl, rfl⟩ := Prod.mk.inj h
        · exact .inl (by simpa [openActLines] using hm)
        · have hcases : m ∈ openActLines (some (.loop header body)) ∨ m = l := by
            simp only [openActLines, OpenBlock.close, actLines, Option.map_some, Option.getD_some,
              List.reverse_cons] at hm ⊢
            simp only [List.mem_cons, List.mem_append] at hm ⊢
            simpa [or_assoc] using hm
          exact hcases.imp_right fun hml => ⟨hml, keyword, hkeyword, hefor⟩
    | data header rows =>
      rw [step] at h
      split_ifs at h <;> obtain ⟨rfl, rfl⟩ := Prod.mk.inj h <;>
        exact .inl (by simpa [openActLines, OpenBlock.close, actLines] using hm)

theorem exists_actsIn_of_mem_split {state : Option OpenBlock} {ls : List SourceLine} {b : Block}
    {m : SourceLine}
    (hb : b ∈ (split state ls).1 ++ ((split state ls).2.map OpenBlock.close).toList)
    (hm : m ∈ b.actLines) :
    m ∈ openActLines state ∨
      ∃ before after, ls = before ++ m :: after ∧ m.ActsIn (split state before).2 := by
  induction ls generalizing state with
  | nil =>
    rw [split, List.nil_append, Option.mem_toList] at hb
    obtain ⟨c, hc, rfl⟩ := Option.map_eq_some_iff.1 hb
    dsimp only at hc
    rw [hc]
    exact .inl hm
  | cons l rest ih =>
    rcases hstep : step state l with ⟨next, done⟩
    have hread : m ∈ openActLines next ∨ (∃ b ∈ done, m ∈ b.actLines) →
        m ∈ openActLines state ∨
          ∃ before after, l :: rest = before ++ m :: after ∧ m.ActsIn (split state before).2 := by
      intro hm
      rcases actsIn_step hstep hm with hopen | ⟨rfl, hacts⟩
      · exact .inl hopen
      · exact .inr ⟨[], rest, rfl, hacts⟩
    rw [split_cons_of_step hstep, List.append_assoc, List.mem_append] at hb
    -- The block is ended by the first line, or it is made by the rest.
    rcases hb with hb | hb
    · exact hread (.inr ⟨b, Option.mem_toList.1 hb, hm⟩)
    · rcases ih hb with hopen | ⟨before, after, rfl, hacts⟩
      · exact hread (.inl hopen)
      · refine .inr ⟨l :: before, after, rfl, ?_⟩
        rwa [split_cons_of_step hstep]

end Block

/-- A line of a block is a line of its script, in its place, where it is carried out. -/
theorem Source.exists_actsIn {source : Source} {b : Block} {l : SourceLine}
    (hb : b ∈ source.blocks) (hl : l ∈ b.actLines) :
    1 ≤ l.number ∧ l.number ≤ source.lines.length ∧ source.lines[l.number - 1]? = some l ∧
      l.ActsIn (source.openAt l.number) := by
  have hsplit : b ∈ (Block.split none source.lines).1 ++
      ((Block.split none source.lines).2.map OpenBlock.close).toList := by
    rw [Source.blocks] at hb
    revert hb
    cases source.failure with
    | none => exact id
    | some reason => exact fun h => List.mem_append_left _ h
  obtain hnone | ⟨before, after, hlines, hacts⟩ := Block.exists_actsIn_of_mem_split hsplit hl
  · simp [Block.openActLines] at hnone
  have hnumber := source.number_of_lines_eq hlines
  have hplace : l.number - 1 = before.length := by omega
  refine ⟨by omega, ?_, ?_, ?_⟩
  · rw [hlines, hnumber]
    simp
  · rw [hlines, hplace]
    simp
  · rw [openAt, hplace, hlines, List.take_left']
    · exact hacts
    · rfl

/-! ## Frames -/

variable {φ : Type}

/-- A script or an included file that is being carried out, with the state at its start. -/
structure Frame (φ : Type) where
  source : Source
  start : World φ

variable [FileStore φ]

/-- The records of a loop are made of the lines of its body, each with a value put in. -/
theorem exists_of_mem_loopRecords {header : SourceLine} {body : List SourceLine} {w u : World φ}
    {rs : List Record} {r : Record} (h : loopRecords header body w = (u, .ok rs)) (hr : r ∈ rs) :
    ∃ loop values value l, Loop.Header.ofRecord (header.record w.store) = .ok loop ∧
      loop.source.values w = (u, .ok values) ∧ value ∈ values ∧ l ∈ body ∧
      r = (l.record w.store).bind loop.placeholder value := by
  rw [loopRecords] at h
  cases hloop : Loop.Header.ofRecord (header.record w.store) with
  | error fault =>
    rw [hloop] at h
    cases h
  | ok loop =>
    simp only [hloop] at h
    rcases hvalues : loop.source.values w with ⟨v, fault | values⟩
    · rw [hvalues] at h
      cases h
    · rw [hvalues] at h
      cases h
      obtain ⟨value, hvalue, hr⟩ := List.mem_flatMap.1 hr
      obtain ⟨r', hr', rfl⟩ := List.mem_map.1 hr
      obtain ⟨l, hl, rfl⟩ := List.mem_map.1 hr'
      exact ⟨loop, values, value, l, rfl, hvalues, hvalue, hl, rfl⟩

theorem Call.Cell.precedes {env : Environment} {p q : Call φ} (h : p.Cell env q) :
    p.world.Precedes q.world := by
  obtain ⟨-, -, hreached, -, -⟩ := h
  have hopening := p.world.precedes_announce env p.record
  exact (hopening.trans (World.precedes_open _ _)).trans (hreached.precedes
    fun n place => advances_runCell (advances_dispatch env n) p.record.line place)

namespace Frame

/-- The block of the frame is carried out, and this is the state in front of it. -/
def Comes (env : Environment) (f : Frame φ) (b : Block) (w : World φ) : Prop :=
  ReachedBefore (fun n => runBlock (dispatch env n)) f.source.blocks f.start b w

/-- The act is performed in the frame, and it stands on the line. -/
inductive Performs (env : Environment) (f : Frame φ) : SourceLine → Act φ → Prop
  | directive {l : SourceLine} {w : World φ} : f.Comes env (.directive l) w →
    Performs env f l (.call ⟨l.record w.store, w⟩)
  | loop {header : SourceLine} {body : List SourceLine} {w : World φ} :
    f.Comes env (.loop header body) w → Performs env f header (.loop header body w)
  /-- A line of a loop is carried out with its tokens as they were in front of the loop. -/
  | body {header l : SourceLine} {body : List SourceLine} {w u v : World φ} {rs : List Record}
      {placeholder value : String} :
    f.Comes env (.loop header body) w → loopRecords header body w = (u, .ok rs) → l ∈ body →
      ReachedBefore (dispatch env) rs u ((l.record w.store).bind placeholder value) v →
      Performs env f l (.call ⟨(l.record w.store).bind placeholder value, v⟩)
  | data {header : SourceLine} {rows : List SourceLine} {w : World φ} :
    f.Comes env (.data header rows) w → Performs env f header (.data header rows w)
  /-- A cell stands on the line that fills the grid. -/
  | cell {l : SourceLine} {p q : Call φ} : Performs env f l (.call p) → p.Cell env q →
    Performs env f l (.call q)

variable {env : Environment} {f : Frame φ} {l : SourceLine} {a : Act φ} {b : Block} {w : World φ}

/-- A record that a block of the frame carries out stands on one of the block's lines. -/
theorem exists_performs_of_carries {v : World φ} {r : Record} (h : f.Comes env b w)
    (hcarries : b.Carries env w r v) : ∃ l, f.Performs env l (.call ⟨r, v⟩) := by
  cases hcarries with
  | directive l => exact ⟨l, .directive h⟩
  | @loop header body _ _ _ rs _ hrecords hreached =>
    have hr : r ∈ rs := by
      obtain ⟨before, after, n, rfl, -⟩ := hreached
      simp
    obtain ⟨loop, values, value, l, -, -, -, hl, rfl⟩ := exists_of_mem_loopRecords hrecords hr
    exact ⟨l, .body h hrecords hl hreached⟩

theorem Comes.precedes (h : f.Comes env b w) : f.start.Precedes w :=
  ReachedBefore.precedes (fun n b => advances_runBlock (advances_dispatch env n) b) h

theorem Comes.mem_blocks (h : f.Comes env b w) : b ∈ f.source.blocks := by
  obtain ⟨before, after, n, hblocks, -⟩ := h
  rw [hblocks]
  simp

/-- An act has the number of the line on which it stands. -/
theorem Performs.line_eq (h : f.Performs env l a) : a.line = l.number := by
  induction h with
  | directive hcomes => rfl
  | loop hcomes => rfl
  | body hcomes hrecords hl hreached => rfl
  | data hcomes => rfl
  | cell h hcell ih =>
    obtain ⟨-, -, -, hrecord, -⟩ := hcell
    rw [← ih, Act.line, hrecord]
    rfl

/-- Acts are performed after the start of their frame. -/
theorem Performs.precedes (h : f.Performs env l a) : f.start.Precedes a.world := by
  induction h with
  | directive hcomes => exact hcomes.precedes
  | loop hcomes => exact hcomes.precedes
  | data hcomes => exact hcomes.precedes
  | @body header l body w u v rs _ _ hcomes hrecords hl hreached =>
    have hlookup := precedes_loopRecords header body w
    rw [hrecords] at hlookup
    exact (hcomes.precedes.trans hlookup).trans (hreached.precedes (advances_dispatch env))
  | cell h hcell ih => exact ih.trans hcell.precedes

/-- An act stands on a line of its frame that is carried out. -/
theorem Performs.exists_actsIn (h : f.Performs env l a) :
    1 ≤ l.number ∧ l.number ≤ f.source.lines.length ∧
      f.source.lines[l.number - 1]? = some l ∧ l.ActsIn (f.source.openAt l.number) := by
  induction h with
  | directive hcomes => exact Source.exists_actsIn hcomes.mem_blocks List.mem_cons_self
  | loop hcomes => exact Source.exists_actsIn hcomes.mem_blocks List.mem_cons_self
  | data hcomes => exact Source.exists_actsIn hcomes.mem_blocks List.mem_cons_self
  | body hcomes _ hl _ =>
    exact Source.exists_actsIn hcomes.mem_blocks (List.mem_cons_of_mem _ hl)
  | cell _ _ ih => exact ih

end Frame

/-- The frame belongs to the run, with the name of its file if it is not the script itself. -/
inductive Runs (env : Environment) (script : Source) (w : World φ) : Option String → Frame φ → Prop
  | script : Runs env script w none ⟨script, w.renew⟩
  /-- A file is carried out as it is when the line that includes it is. -/
  | file {file : Option String} {f : Frame φ} {l : SourceLine} {p : Call φ}
      {name contents : String} :
    Runs env script w file f → f.Performs env l (.call p) → p.Asks env (.enter name) →
      p.world.includes.length < env.includeLimit →
      FileStore.read p.world.files name = .ok contents →
      Runs env script w (some name) ⟨.ofText contents, (p.opening env name).enter name⟩

namespace Runs

variable {env : Environment} {script : Source} {w : World φ} {file : Option String} {f : Frame φ}

/-- The innermost of the files that are being included is that of the frame. -/
theorem head?_includes (h : Runs env script w file f) : f.start.includes.head? = file := by
  cases h with
  | script => rfl
  | file _ _ _ _ _ => rfl

/-- No more files are being included than the limit allows. -/
theorem length_includes_le (h : Runs env script w file f) :
    f.start.includes.length ≤ env.includeLimit := by
  cases h with
  | script => exact Nat.zero_le _
  | @file _ _ _ p name _ _ _ _ hdepth _ =>
    simp only [World.enter, Call.opening, World.note, Call.announce_includes, List.length_cons]
    omega

end Runs

/-! ## The acts of a run in their frames -/

section History

variable {env : Environment} {script : Source} {w : World φ}

/-- With `n` levels, what the calls of frames carry out is performed in frames. -/
def NestsInFrames (env : Environment) (script : Source) (w : World φ) (n : Nat) : Prop :=
  ∀ {file : Option String} {f : Frame φ} {l : SourceLine} {p : Call φ}, Runs env script w file f →
    f.Performs env l (.call p) → ∀ a ∈ acts env n p.record p.world,
      ∃ file f l, Runs env script w file f ∧ f.Performs env l a

theorem Runs.exists_performs {n : Nat} (hnested : NestsInFrames env script w n)
    {file : Option String} {f : Frame φ} (hf : Runs env script w file f) {a : Act φ}
    (ha : a ∈ blockActs (dispatch env n) (acts env n) f.source.blocks f.start) :
    ∃ file f l, Runs env script w file f ∧ f.Performs env l a := by
  obtain ⟨b, u, hcomes, ⟨header, body, rfl, rfl⟩ | ⟨header, rows, rfl, rfl⟩ |
    ⟨r, v, hcarries, ha⟩⟩ := exists_of_mem_blockActs ha
  · exact ⟨file, f, header, hf, .loop hcomes⟩
  · exact ⟨file, f, header, hf, .data hcomes⟩
  · obtain ⟨l, hperforms⟩ := Frame.exists_performs_of_carries hcomes hcarries
    exact hnested hf hperforms a ha

theorem nestsInFrames (hstandard : env.vocabulary = .standard) (n : Nat) :
    NestsInFrames env script w n := by
  -- What a call nests has one level less, and it is performed in the frame of the call or of the
  -- file that the call includes.
  induction n with
  | zero =>
    intro file f l p hf hp a ha
    cases ha
  | succ n ih =>
    intro file f l p hf hp a ha
    rcases Call.exists_of_mem_acts hstandard ha with rfl |
      ⟨name, contents, hasks, hlimit, hread, ha⟩ | ⟨q, hcell, ha⟩
    · exact ⟨file, f, l, hf, hp⟩
    · exact (Runs.file hf hp hasks hlimit hread).exists_performs ih ha
    · exact ih hf (hp.cell hcell) a ha

/-- Every act of a run is performed in one of its frames. -/
theorem exists_performs_of_mem_history (hstandard : env.vocabulary = .standard) {levels : Nat}
    {a : Act φ} (ha : a ∈ history env levels script w) :
    ∃ file f l, Runs env script w file f ∧ f.Performs env l a :=
  Runs.script.exists_performs (nestsInFrames hstandard levels) ha

end History

/-! ## The calls of a run among its acts -/

section Calls

variable {env : Environment} {n : Nat}

/-- The acts of a record that is carried out are among those of the blocks, if these end. -/
theorem Carried.mem_blockActs {bs : List Block} {w v : World φ} {r : Record}
    (h : Carried env bs w r v) (hends : (runBlocks (dispatch env n) bs w).isExhausted = false)
    {x : Act φ} (hx : x ∈ acts env n r v) : x ∈ blockActs (dispatch env n) (acts env n) bs w := by
  obtain ⟨b, u, hreached, hcarries⟩ := h
  rw [runBlocks_eq_runSteps] at hends
  have hblock := (hreached.of_ends (fun h => runBlock_unless env h) hends).1
  refine hreached.mem_collect (fun h => runBlock_unless env h) hends ?_
  cases hcarries with
  | directive l => exact hx
  | loop hrecords hcarried =>
    simp only [runBlock, runLoop_eq, hrecords, Attempt.settle_outcome,
      runRecords_eq_runSteps] at hblock
    rw [Block.acts, hrecords]
    exact List.mem_cons_of_mem _ (hcarried.mem_collect (dispatch_unless env) hblock hx)

theorem Call.Includes.mem_acts {p q : Call φ} (h : p.Includes env q)
    (hends : (dispatch env (n + 1) p.record p.world).isExhausted = false) {x : Act φ}
    (hx : x ∈ acts env n q.record q.world) : x ∈ acts env (n + 1) p.record p.world := by
  obtain ⟨hasks, hlimit, hread, hcarried⟩ := h
  rw [hasks.dispatch_succ, fulfil_enter (by rwa [Call.announce_includes])
    (by rwa [Call.announce_files]), Outcome.isExhausted_settle_outcome,
    Outcome.isExhausted_map] at hends
  obtain ⟨d, hd, hask⟩ := hasks
  simp only [acts, hd, hask, nestedActs, Call.announce_includes, if_neg (Nat.not_le.2 hlimit),
    World.open?, Call.announce_files, hread]
  exact List.mem_cons_of_mem _ (hcarried.mem_blockActs hends hx)

theorem Call.Cell.mem_acts {p q : Call φ} (h : p.Cell env q)
    (hends : (dispatch env (n + 1) p.record p.world).isExhausted = false) {x : Act φ}
    (hx : x ∈ acts env n q.record q.world) : x ∈ acts env (n + 1) p.record p.world := by
  obtain ⟨hasks, hread, hreached, hrecord, hlength⟩ := h
  rw [hasks.dispatch_succ, fulfil_fillGrid (by rwa [Call.announce_files]),
    Outcome.isExhausted_settle_outcome] at hends
  obtain ⟨d, hd, hask⟩ := hasks
  simp only [acts, hd, hask, nestedActs, World.open?, Call.announce_files, hread]
  refine List.mem_cons_of_mem _ (hreached.mem_collect
    (fun h => runCell_unless env h p.record.line) hends ?_)
  rw [cellActs, ← hrecord, if_pos hlength]
  exact hx

theorem Call.Nests.mem_acts {p q : Call φ} (h : p.Nests env q)
    (hends : (dispatch env (n + 1) p.record p.world).isExhausted = false) {x : Act φ}
    (hx : x ∈ acts env n q.record q.world) : x ∈ acts env (n + 1) p.record p.world := by
  rcases h with h | h
  · exact h.mem_acts hends hx
  · exact h.mem_acts hends hx

/-- A call that ends with some number of levels has the calls nested in it among its acts. -/
theorem call_mem_acts_of_reflTransGen {p q : Call φ} (h : ReflTransGen (Call.Nests env) p q)
    (hends : (dispatch env n p.record p.world).isExhausted = false) :
    .call q ∈ acts env n p.record p.world := by
  -- From the outermost call on, each nesting takes one level, and what it nests ends with the rest.
  induction h using ReflTransGen.head_induction_on generalizing n with
  | refl =>
    cases n with
    | zero => cases hends
    | succ n => exact List.mem_cons_self
  | head hnests _ ih =>
    cases n with
    | zero => cases hends
    | succ n =>
      refine hnests.mem_acts hends (ih ?_)
      by_contra hexhausted
      rw [Bool.not_eq_false] at hexhausted
      rw [hnests.isExhausted hexhausted] at hends
      cases hends

/-- The calls that a run reaches are among its acts, if it ends. -/
theorem Reaches.mem_history {script : Source} {w : World φ} {levels : Nat} {p : Call φ}
    (h : Reaches env script w p) (hends : (run env levels script w).isExhausted = false) :
    .call p ∈ history env levels script w := by
  obtain ⟨q, hcarried, hqp⟩ := h
  refine hcarried.mem_blockActs hends (call_mem_acts_of_reflTransGen hqp ?_)
  by_contra hexhausted
  rw [Bool.not_eq_false] at hexhausted
  rw [run, hcarried.isExhausted hexhausted] at hends
  cases hends

/-- The calls among the acts of a run are reached by the run. -/
theorem reaches_of_call_mem_history (hstandard : env.vocabulary = .standard) {script : Source}
    {w : World φ} {levels : Nat} {p : Call φ} (h : .call p ∈ history env levels script w) :
    Reaches env script w p := by
  obtain ⟨b, u, hreached, ⟨_, _, _, hp⟩ | ⟨_, _, _, hp⟩ | ⟨r, v, hcarries, hp⟩⟩ :=
    exists_of_mem_blockActs h
  · cases hp
  · cases hp
  · exact ⟨⟨r, v⟩, ⟨b, u, hreached, hcarries⟩, reflTransGen_of_call_mem_acts hstandard hp⟩

end Calls

end DeckScript
