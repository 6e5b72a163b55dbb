import DeckScript.Proofs.IncludeLine
import DeckScript.Proofs.Nesting

/-!
# Including a file and writing out its lines

A script that includes a file is compared with the script in which the lines of the file stand in
place of the line that includes it. The two runs are in lockstep: the first one is deeper in
included files by one while it is in the file, and the lines have other numbers, but both see the
same variables, files and random numbers. Only the limit on included files can part them, since the
first run may meet it where the second does not.

## Main definitions

* `Event.isEffect` — an event that changes something outside of the run
* `World.Inlined` — states that differ in their places in the script only
* `World.MetLimit` — a file was refused since the limit was met
* `Inlined` — the outcomes of the two runs

## Main results

* `lockstep_inlined` — the two runs are in lockstep
* `compile_include` — including a file does what its lines do in its place
-/

namespace DeckScript

variable {φ : Type}

/-- A file that is saved, or a program that is run. -/
def Event.isEffect : Event → Bool
  | .saved _ _ | .called _ => true
  | .traced _ _ | .opened _ => false

/-- The faults in the report, without their places. -/
def World.faults (w : World φ) : List Fault := w.report.toList.map (·.fault)

/-- The files that were saved and the programs that were run, the latest first. -/
def World.effects (w : World φ) : List Event := w.journal.filter Event.isEffect

@[simp] theorem World.faults_blame (w : World φ) (line : Nat) (fault : Fault) :
    (w.blame line fault).faults = w.faults ++ [fault] := by
  simp [World.faults, World.blame]

theorem World.effects_note (w : World φ) (e : Event) :
    (w.note e).effects = if e.isEffect then e :: w.effects else w.effects :=
  List.filter_cons

theorem World.calls_eq_effects (w : World φ) : w.calls = w.effects.filterMap Event.command? := by
  rw [calls, effects, List.filterMap_filter]
  congr 1
  funext e
  cases e <;> rfl

/-- States that differ in the places of their faults, in what was traced and opened, and in the
files that are being included: `k` more of them in `w`. -/
structure World.Inlined (k : Nat) (w v : World φ) : Prop where
  store : w.store = v.store
  random : w.random = v.random
  files : w.files = v.files
  output : w.output = v.output
  faults : w.faults = v.faults
  effects : w.effects = v.effects
  depth : w.includes.length = v.includes.length + k

/-- A file was refused since too many were being included. -/
def World.MetLimit (w : World φ) : Prop := ∃ file limit, .depth file limit ∈ w.faults

/-- The outcomes of the two runs, as long as both end and the first does not meet the limit. -/
inductive Inlined (k : Nat) : Outcome φ → Outcome φ → Prop
  | finished {w v : World φ} : w.Inlined k v → Inlined k (.finished w) (.finished v)
  | refused {w v : World φ} : w.Inlined k v → Inlined k (.refused w) (.refused v)
  | left {o p : Outcome φ} : o.isExhausted → Inlined k o p
  | right {o p : Outcome φ} : p.isExhausted → Inlined k o p
  | deep {o p : Outcome φ} : o.world.MetLimit → Inlined k o p

namespace World.Inlined

variable {k : Nat} {w v : World φ}

theorem refl (w : World φ) : w.Inlined 0 w := ⟨rfl, rfl, rfl, rfl, rfl, rfl, rfl⟩

/-- Programs are among what was run, so both states have run the same commands. -/
theorem calls (h : w.Inlined k v) : w.calls = v.calls := by
  rw [World.calls_eq_effects, World.calls_eq_effects, h.effects]

theorem note (h : w.Inlined k v) (e : Event) : (w.note e).Inlined k (v.note e) where
  __ := h
  effects := by rw [effects_note, effects_note, h.effects]

/-- The first run may trace a line and open a file that the second does not. -/
theorem noteLeft (h : w.Inlined k v) {e : Event} (he : e.isEffect = false) :
    (w.note e).Inlined k v where
  __ := h
  effects := by rw [effects_note, he, h.effects]; rfl

theorem trace (h : w.Inlined k v) (l m : Nat) (tokens : List String) :
    (w.note (.traced l tokens)).Inlined k (v.note (.traced m tokens)) where
  __ := h
  effects := h.effects

theorem blame (h : w.Inlined k v) (l m : Nat) (fault : Fault) :
    (w.blame l fault).Inlined k (v.blame m fault) where
  __ := h
  faults := by rw [faults_blame, faults_blame, h.faults]

theorem enter (h : w.Inlined k v) (name : String) : (w.enter name).Inlined k (v.enter name) where
  __ := h
  depth := by
    have := h.depth
    simp only [World.enter, List.length_cons]
    omega

/-- The first run enters the file and the second one stays where it is. -/
theorem enterLeft (h : w.Inlined k v) (name : String) : (w.enter name).Inlined (k + 1) v where
  __ := h
  depth := by
    have := h.depth
    simp only [World.enter, List.length_cons]
    omega

theorem leave (h : w.Inlined k v) {name name' : String} {ws vs : List String}
    (hw : w.includes = name :: ws) (hv : v.includes = name' :: vs) :
    w.leave.Inlined k v.leave where
  __ := h
  depth := by
    have := h.depth
    simp only [hw, hv, World.leave, List.tail_cons, List.length_cons] at this ⊢
    omega

theorem leaveLeft (h : w.Inlined (k + 1) v) : w.leave.Inlined k v where
  __ := h
  depth := by
    have := h.depth
    rw [World.leave, List.length_tail]
    omega

end World.Inlined

theorem World.metLimit_blame (w : World φ) (line : Nat) (file : String) (limit : Nat) :
    (w.blame line (.depth file limit)).MetLimit := by
  refine ⟨file, limit, ?_⟩
  rw [faults_blame]
  exact List.mem_append_right _ List.mem_cons_self

theorem World.MetLimit.precedes [FileStore φ] {w v : World φ} (h : w.MetLimit)
    (hwv : w.Precedes v) : v.MetLimit := by
  obtain ⟨file, limit, hfault⟩ := h
  exact ⟨file, limit, (hwv.report.map _).subset hfault⟩

namespace Inlined

variable {k : Nat} {o p : Outcome φ}

theorem write {w v : World φ} (h : w.Inlined k v) (data : ByteArray) :
    Inlined k (w.write data) (v.write data) := by
  rw [World.write, World.write, h.output]
  rcases v.output.write data with ⟨output, _ | _⟩
  · exact .refused { h with output := rfl }
  · exact .finished { h with output := rfl }

theorem leave {name name' : String} {ws vs : List String} (h : Inlined k o p)
    (ho : o.world.includes = name :: ws) (hp : p.world.includes = name' :: vs) :
    Inlined k (o.map World.leave) (p.map World.leave) := by
  cases h with
  | finished h => exact .finished (h.leave ho hp)
  | refused h => exact .refused (h.leave ho hp)
  | left h => exact .left (by rwa [Outcome.isExhausted_map])
  | right h => exact .right (by rwa [Outcome.isExhausted_map])
  | deep h =>
    refine .deep ?_
    cases o <;> exact h

/-- Only the first run leaves the file. -/
theorem leaveLeft (h : Inlined (k + 1) o p) : Inlined k (o.map World.leave) p := by
  cases h with
  | finished h => exact .finished h.leaveLeft
  | refused h => exact .refused h.leaveLeft
  | left h => exact .left (by rwa [Outcome.isExhausted_map])
  | right h => exact .right h
  | deep h =>
    refine .deep ?_
    cases o <;> exact h

theorem andThen [FileStore φ] {f g : Step φ} (hf : Advances f) (h : Inlined k o p)
    (hfg : ∀ w v, o = .finished w → w.Inlined k v → Inlined k (f w) (g v)) :
    Inlined k (o.andThen f) (p.andThen g) := by
  cases h with
  | finished h => exact hfg _ _ rfl h
  | refused h => exact .refused h
  | left h => exact .left (Outcome.isExhausted_andThen h f)
  | right h => exact .right (Outcome.isExhausted_andThen h g)
  | deep h => exact .deep (h.precedes (Outcome.precedes_andThen (.refl o.world) hf))

end Inlined

/-! ## The two runs -/

section Runs

variable [FileStore φ] {env : Environment}

theorem lockstep_inlined (hstandard : env.vocabulary = .standard) (k : Nat) :
    Lockstep env (fun _ _ => True) (World.Inlined (φ := φ) k) (Inlined k) where
  number _ := trivial
  ask hd r s hrs store := by
    -- Both records ask what the record with their tokens and their text in line zero asks.
    rw [Vocabulary.ignoresLine (hstandard ▸ hd) store r,
      Vocabulary.ignoresLine (hstandard ▸ hd) store s, hrs.tokens, hrs.text]
  store h := h.store
  random h := h.random
  files h := h.files
  calls h := h.calls
  assign h store random := { h with store := rfl, random := rfl }
  save h files := { h with files := rfl }
  note h e := h.note e
  trace h _ tokens := h.trace _ _ tokens
  blame h _ fault := h.blame _ _ fault
  enter h name := h.enter name
  leave h ho hp := h.leave ho hp
  shallow h hlimit := by
    have := h.depth
    omega
  deep h _ := by
    -- The first run is refused where the second may go on, so nothing more is compared.
    apply Or.inr
    intro line name p
    exact .deep (World.metLimit_blame _ line name _)
  finished h := .finished h
  write h data := .write h data
  andThen hf _ h hfg := h.andThen hf fun w v _ => hfg w v

theorem inlined_dispatch (hstandard : env.vocabulary = .standard) (k n m : Nat) {r s : Record}
    (hrs : r.Alike (fun _ _ => True) s) :
    InStep (World.Inlined k) (Inlined k) (dispatch env n r : Step φ) (dispatch env m s) := by
  induction n generalizing m r s with
  | zero => exact ⟨advances_dispatch env 0 r, advances_dispatch env m s, fun _ => .left rfl⟩
  | succ n ih =>
    cases m with
    | zero =>
      exact ⟨advances_dispatch env (n + 1) r, advances_dispatch env 0 s, fun _ => .right rfl⟩
    | succ m => exact (lockstep_inlined hstandard k).coupling.dispatch_succ (ih m) hrs

theorem inlined_runBlocks (hstandard : env.vocabulary = .standard) (k n m : Nat)
    {bs cs : List Block} (hbs : List.Forall₂ (Block.Alike fun _ _ => True) bs cs) :
    InStep (World.Inlined k) (Inlined k) (runBlocks (dispatch env n) bs : Step φ)
      (runBlocks (dispatch env m) cs) :=
  (lockstep_inlined hstandard k).coupling.runBlocks (inlined_dispatch hstandard k n m) hbs

/-- The line that includes a file does what the lines of the file do. -/
theorem inlined_includeLine (hstandard : env.vocabulary = .standard) {name c : String}
    (hname : PlainName name) {w v : World φ} (h : w.Inlined 0 v)
    (hread : FileStore.read w.files name = .ok c) (hstore : w.store.get? (quotedName name) = none)
    (n m i j : Nat) :
    Inlined 0 (runBlock (dispatch env n) (.directive ⟨i, includeLine name⟩) w)
      (runBlocks (dispatch env m) (Block.ofLines (Text.numbered j c)) v) := by
  cases n with
  | zero => exact .left rfl
  | succ n =>
    -- The record takes one level, and its tokens are the word and the name as it is quoted.
    let r := SourceLine.record ⟨i, includeLine name⟩ w.store
    have hasks : Call.Asks env ⟨r, w⟩ (.enter name) :=
      ⟨Directive.inclusion, hstandard ▸ get?_includeLine hname hstore i,
        ask_includeLine hname hstore i⟩
    change Inlined 0 (dispatch env (n + 1) r w) _
    by_cases hlimit : env.includeLimit ≤ w.includes.length
    · rw [hasks.dispatch_of_limit hlimit]
      exact .deep (World.metLimit_blame _ _ name _)
    · have hdepth : (announce env r w).includes.length < env.includeLimit := by
        rw [Call.announce_includes]
        omega
      have hread' : FileStore.read (announce env r w).files name = .ok c := by
        rwa [Call.announce_files]
      have hannounce : (announce env r w).Inlined 0 v := by
        rw [announce]
        split
        · exact h.noteLeft rfl
        · exact h
      -- Inside the file the first run is deeper by one than the second.
      have hinside : Inlined 1
          (runBlocks (dispatch env n) (Source.ofText c).blocks
            ((Call.opening env ⟨r, w⟩ name).enter name))
          (runBlocks (dispatch env m) (Block.ofLines (Text.numbered j c)) v) := by
        rw [blocks_ofText]
        refine (inlined_runBlocks hstandard 1 n m (Block.alike_ofLines 1 j c)).related ?_
        have hopening : (Call.opening env ⟨r, w⟩ name).Inlined 0 v := hannounce.noteLeft rfl
        exact hopening.enterLeft name
      rw [hasks.dispatch_succ, fulfil_enter hdepth hread', Attempt.settle_outcome]
      exact hinside.leaveLeft

/-- The script that includes a file runs in step with the one in which the file's lines stand in
place of the line that includes it. -/
theorem inlined_run (hstandard : env.vocabulary = .standard) {a b c name : String} {w : World φ}
    {n : Nat} (m : Nat) (ha : Text.Ended a) (hc : Text.Ended c)
    (hasplit : (Block.split none (Source.ofText a).lines).2 = none)
    (hcsplit : (Block.split none (Source.ofText c).lines).2 = none) (hname : PlainName name)
    (hreach : ∀ u, run env n (Source.ofText a) w = .finished u →
      FileStore.read u.files name = .ok c ∧ u.store.get? (quotedName name) = none) :
    Inlined 0 (run env n (Source.ofText (a ++ (includeLine name ++ "\n") ++ b)) w)
      (run env m (Source.ofText (a ++ c ++ b)) w) := by
  have hline : Text.Ended (includeLine name ++ "\n") := .inr ⟨includeLine name, rfl⟩
  have hlinesplit :
      (Block.split none (Source.ofText (includeLine name ++ "\n")).lines).2 = none := by
    rw [Text.lines_ofText, split_includeLine hname]
  obtain ⟨i, i', hincluding⟩ := exists_blocks_ofText ha hline hasplit hlinesplit b
  obtain ⟨j, j', hinlining⟩ := exists_blocks_ofText ha hc hasplit hcsplit b
  rw [run, run, hincluding, hinlining, ofLines_includeLine hname, runBlocks_append,
    runBlocks_append]
  have hfront : Inlined 0 (runBlocks (dispatch env n) (Source.ofText a).blocks w.renew)
      (runBlocks (dispatch env m) (Source.ofText a).blocks w.renew) :=
    (inlined_runBlocks hstandard 0 n m
      (List.forall₂_same.2 fun b _ => .refl (fun _ => trivial) b)).related (.refl w.renew)
  have hback := inlined_runBlocks (φ := φ) hstandard 0 n m (Block.alike_ofLines i' j' b)
  refine hfront.andThen (advances_runBlocks (advances_dispatch env n) _) fun u v hu huv => ?_
  -- Only here it matters which state the line is reached in: the file holds `c` in it.
  obtain ⟨hread, hstore⟩ := hreach u hu
  have hsingle : runBlocks (dispatch env n) [.directive ⟨i, includeLine name⟩] u =
      runBlock (dispatch env n) (.directive ⟨i, includeLine name⟩) u := Outcome.andThen_finished _
  have hfile := inlined_includeLine hstandard hname huv hread hstore n m i j
  rw [runBlocks_append, runBlocks_append, hsingle]
  exact hfile.andThen hback.left fun _ _ _ h => hback.related h

/-- Let a script with the standard vocabulary include a file in a line of its own, where all blocks
that begin before are over, and let the same be true of the blocks of the file. If both
compilations end and the first does not meet the limit on included files, they end in the same way,
with the same output, variables, random stream and files; they saved the same files and ran the
same programs, and they found the same faults. -/
theorem compile_include (hstandard : env.vocabulary = .standard) {a b c name : String} {w : World φ}
    {n m : Nat} (ha : Text.Ended a) (hc : Text.Ended c)
    (hasplit : (Block.split none (Source.ofText a).lines).2 = none)
    (hcsplit : (Block.split none (Source.ofText c).lines).2 = none) (hname : PlainName name)
    (hreach : ∀ u, run env n (Source.ofText a) w = .finished u →
      FileStore.read u.files name = .ok c ∧ u.store.get? (quotedName name) = none)
    (hincluded : (compile env n (Source.ofText (a ++ (includeLine name ++ "\n") ++ b)) w).1 ≠
      .exhausted)
    (hinlined : (compile env m (Source.ofText (a ++ c ++ b)) w).1 ≠ .exhausted)
    (hlimit :
      ¬ (compile env n (Source.ofText (a ++ (includeLine name ++ "\n") ++ b)) w).2.MetLimit) :
    let included := compile env n (Source.ofText (a ++ (includeLine name ++ "\n") ++ b)) w
    let inlined := compile env m (Source.ofText (a ++ c ++ b)) w
    included.1 = inlined.1 ∧ included.2.output = inlined.2.output ∧
      included.2.store = inlined.2.store ∧ included.2.random = inlined.2.random ∧
      included.2.files = inlined.2.files ∧ included.2.effects = inlined.2.effects ∧
      included.2.faults = inlined.2.faults := by
  intro included inlined
  have hrun := inlined_run hstandard m ha hc hasplit hcsplit hname (b := b) hreach
  simp only [included, inlined, compile] at hincluded hinlined hlimit ⊢
  revert hrun hincluded hinlined hlimit
  generalize run env n (Source.ofText (a ++ (includeLine name ++ "\n") ++ b)) w = o
  generalize run env m (Source.ofText (a ++ c ++ b)) w = p
  intro hincluded hinlined hlimit hrun
  cases hrun with
  | finished h =>
    refine ⟨?_, h.output, h.store, h.random, h.files, h.effects, h.faults⟩
    simp only [Outcome.verdict, h.output]
    rfl
  | refused h =>
    refine ⟨?_, h.output, h.store, h.random, h.files, h.effects, h.faults⟩
    simp only [Outcome.verdict, h.output]
  | left h => exact (hincluded ((Outcome.verdict_eq_exhausted_iff _ _).2 h)).elim
  | right h => exact (hinlined ((Outcome.verdict_eq_exhausted_iff _ _).2 h)).elim
  | deep h => exact (hlimit h).elim

end Runs

/-! ## A file with an assignment and a faulty line -/

/-- The contents of the file. -/
def partText : String := "y = x\nslide a b c d\n"

/-- The state at the start, with the file under the name `part`. -/
def partWorld : World MemoryFiles :=
  ⟨.empty, .ofSeed 1, .empty, MemoryFiles.empty.write "part" partText, .unlimited, [], []⟩

/-- The standard vocabulary with a limit that is not met. -/
def partEnvironment : Environment := ⟨.standard, 16, false, .ofAnswers fun _ => .ok .empty⟩

theorem compile_include_part :
    let included := compile partEnvironment 2
      (Source.ofText ("deck\nx = 5\n" ++ (includeLine "part" ++ "\n") ++ "edeck\n")) partWorld
    let inlined := compile partEnvironment 1
      (Source.ofText ("deck\nx = 5\n" ++ partText ++ "edeck\n")) partWorld
    included.1 = inlined.1 ∧ included.2.output = inlined.2.output ∧
      included.2.store = inlined.2.store ∧ included.2.random = inlined.2.random ∧
      included.2.files = inlined.2.files ∧ included.2.effects = inlined.2.effects ∧
      included.2.faults = inlined.2.faults := by
  have hname : PlainName "part" := ⟨by decide, by decide, by decide, by decide⟩
  have hreach : ∀ u, run partEnvironment 2 (Source.ofText "deck\nx = 5\n") partWorld =
      .finished u → FileStore.read u.files "part" = .ok partText ∧
        u.store.get? (quotedName "part") = none := by
    intro u hu
    have hworld : u = (run partEnvironment 2 (Source.ofText "deck\nx = 5\n") partWorld).world := by
      rw [hu]
      rfl
    rw [hworld]
    exact ⟨by decide +kernel, by decide +kernel⟩
  have hfaults : (compile partEnvironment 2
      (Source.ofText ("deck\nx = 5\n" ++ (includeLine "part" ++ "\n") ++ "edeck\n"))
      partWorld).2.faults = [.arity "slide" "[bgcolor] [fgcolor]"] := by
    decide +kernel
  refine compile_include rfl (.inr ⟨"deck\nx = 5", rfl⟩) (.inr ⟨"y = x\nslide a b c d", rfl⟩)
    (by decide +kernel) (by decide +kernel) hname hreach (by decide +kernel) (by decide +kernel) ?_
  rintro ⟨file, limit, hmem⟩
  rw [hfaults] at hmem
  simp at hmem

end DeckScript
