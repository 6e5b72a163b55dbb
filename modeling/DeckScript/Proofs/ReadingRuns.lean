import DeckScript.Proofs.Coupling
import DeckScript.Proofs.Renumbering
import DeckScript.Proofs.ScriptParts
import DeckScript.Run.Reading

/-!
# Runs that read their script

A run that reads its script line by line only goes on from one state to the next, as every run does.
Two such runs stay in step if what they read in related states is the same.

If nothing that the run does changes what is read, the lines are settled beforehand. Then it makes
no difference that they are read one by one: the run is the compilation of these lines.

## Main definitions

* `Conclusive` — what a relation on the ends of compilations has to satisfy for two of them to be
  related to the end
* `ReadsLines` — the lines that are read from a state of reading on, and how reading ends

## Main results

* `precedes_runReading` — a run that reads its script only goes on
* `Conclusive.runReading` — two of them in step
* `compileReading_eq_compile` — reading settled lines one by one is compiling them at once
-/

namespace DeckScript

variable {φ ρ : Type}

/-- The state of reading behind what was read. -/
def ReadStep.rest? : ReadStep ρ → Option ρ
  | line _ rest | ended rest => some rest
  | broken _ => none

/-- Going on behind a sequence of two steps. -/
theorem Outcome.conclude_andThen (o : Outcome φ) (f : World φ → Outcome φ)
    (g : World φ → Verdict × World φ) :
    (o.andThen f).conclude g = o.conclude fun w => (f w).conclude g := by
  cases o <;> rfl

theorem Outcome.conclude_congr {o : Outcome φ} {f g : World φ → Verdict × World φ}
    (h : ∀ u, o = .finished u → f u = g u) : o.conclude f = o.conclude g := by
  cases o with
  | finished u => exact h u rfl
  | refused u | exhausted u => rfl

variable [FileStore φ]

/-! ## What such a run keeps -/

omit [FileStore φ] in
theorem World.complete_world (w : World φ) : w.complete.2 = w := by
  rw [complete]
  split <;> rfl

theorem Outcome.precedes_conclude {w : World φ} {o : Outcome φ}
    {f : World φ → Verdict × World φ} (ho : w.Precedes o.world)
    (hf : ∀ u : World φ, u.Precedes (f u).2) : w.Precedes (o.conclude f).2 := by
  cases o with
  | finished u => exact ho.trans (hf u)
  | refused u | exhausted u => exact ho

section Runs

variable {exec : Record → Step φ} (hexec : ∀ r, Advances (exec r)) (next : φ → ρ → ReadStep ρ)
include hexec

/-- A run that reads its script only goes on from the state in which it begins. -/
theorem precedes_runReading (n number : Nat) (opened : Option OpenBlock) (r : ρ) (w : World φ) :
    w.Precedes (runReading exec next n number opened r w).2 := by
  induction n generalizing number opened r w with
  | zero => exact .refl w
  | succ n ih =>
    have hblock (b : Block) (number : Nat) (opened : Option OpenBlock) (rest : ρ) :
        w.Precedes ((runBlock exec b w).conclude (runReading exec next n number opened rest)).2 :=
      Outcome.precedes_conclude (advances_runBlock hexec b w) fun u => ih number opened rest u
    rw [runReading]
    split
    · exact .refl w
    · split
      · rw [World.complete_world]
        exact .refl w
      · exact hblock _ number none _
    · split
      · exact ih _ _ _ w
      · exact hblock _ (number + 1) _ _

end Runs

/-- Compiling a script while it is read only goes on from the state at its start. -/
theorem precedes_compileReading (env : Environment) (levels : Nat) (next : φ → ρ → ReadStep ρ)
    (readings : Nat) (r : ρ) (w : World φ) :
    w.renew.Precedes (compileReading env levels next readings r w).2 :=
  precedes_runReading (advances_dispatch env levels) next readings 1 none r w.renew

/-- The journal of a compilation tells what became of the files. -/
theorem files_compileReading (env : Environment) (levels : Nat) (next : φ → ρ → ReadStep ρ)
    (readings : Nat) (r : ρ) {w : World φ} (hw : w.journal = []) :
    (compileReading env levels next readings r w).2.files =
      replay (compileReading env levels next readings r w).2.journal w.files := by
  obtain ⟨events, hevents, hfiles⟩ := (precedes_compileReading env levels next readings r w).journal
  have hnil : w.renew.journal = [] := hw
  rw [hevents, hnil, List.append_nil, hfiles]
  rfl

/-! ## Runs that are not traced -/

section Untraced

variable {env : Environment}
  (henv : ∀ keyword d, env.vocabulary.get? keyword = some d → d.IgnoresPlace)
  (next : φ → ρ → ReadStep ρ)
include henv

/-- Without its traces, a run is the one that is not traced. -/
theorem behind_runReading (levels n number : Nat) (opened : Option OpenBlock) (r : ρ)
    {w : World φ} (hw : w.includes = []) :
    (runReading (dispatch env levels) next n number opened r w).2.behind (.numbering id) =
      (runReading (dispatch env.untraced levels) next n number opened r
        (w.behind (.numbering id))).2 := by
  induction n generalizing number opened r w with
  | zero => rfl
  | succ n ih =>
    have hblock (b : Block) (number : Nat) (opened : Option OpenBlock) (rest : ρ) :
        ((runBlock (dispatch env levels) b w).conclude
          (runReading (dispatch env levels) next n number opened rest)).2.behind (.numbering id) =
        ((runBlock (dispatch env.untraced levels) b (w.behind (.numbering id))).conclude
          (runReading (dispatch env.untraced levels) next n number opened rest)).2 := by
      -- A renumbering that gives every line its own number again only takes the traces away.
      have hsame := commutes_blocks (φ := φ) henv levels (alike_numbering_id [b])
      rw [runBlocks_singleton, runBlocks_singleton] at hsame
      have hincludes := (hsame.advances w).includes.trans hw
      rw [← hsame.map_behind w hw]
      cases hrun : runBlock (dispatch env levels) b w with
      | finished u =>
        rw [hrun] at hincludes
        exact ih number opened rest hincludes
      | refused u | exhausted u => rfl
    have hfiles : (w.behind (.numbering id)).files = w.files := rfl
    rw [runReading, runReading, hfiles]
    cases next w.files r with
    | broken reason => rfl
    | ended rest =>
      cases opened with
      | none => simp only [World.complete_world]
      | some block => exact hblock block.close number none rest
    | line bytes rest =>
      dsimp only
      rcases Block.step opened ⟨number, Text.Utf8.decode bytes⟩ with ⟨opened, _ | block⟩
      · exact ih _ opened rest hw
      · exact hblock block _ opened rest

/-- A compilation that is not traced notes no traces. -/
theorem isTrace_eq_false_of_untraced (htraced : env.traced = false) {levels readings : Nat}
    {r : ρ} {w : World φ} (hw : w.journal = []) {e : Event}
    (he : e ∈ (compileReading env levels next readings r w).2.journal) : e.isTrace = false := by
  have huntraced : env.untraced = env := by rw [Environment.untraced, ← htraced]
  have hstart : w.renew.behind (.numbering id) = w.renew := by
    simp [World.behind, World.renew, Output.behind, Lead.numbering, Report.empty, hw]
  have hrun := behind_runReading henv next levels readings 1 none r (w := w.renew) rfl
  rw [huntraced, hstart] at hrun
  rw [compileReading, ← hrun] at he
  simpa using (List.mem_filter.1 he).2

end Untraced

/-! ## Two of them in step -/

/-- What the relation `H` on the ends of two compilations has to satisfy, with `S` on states and `O`
on the outcomes of steps, for compilations in step to be related. -/
structure Conclusive (S : World φ → World φ → Prop) (O : Outcome φ → Outcome φ → Prop)
    (H : Verdict × World φ → Verdict × World φ → Prop) : Prop where
  complete {w v : World φ} : S w v → H w.complete v.complete
  broken {w v : World φ} : S w v → ∀ reason,
    H (.failed (.read reason), w) (.failed (.read reason), v)
  exhausted {w v : World φ} : S w v → H (.exhausted, w) (.exhausted, v)
  conclude {o p : Outcome φ} {f g : World φ → Verdict × World φ} :
    (∀ u : World φ, u.Precedes (f u).2) → O o p → (∀ w v, S w v → H (f w) (g v)) →
      H (o.conclude f) (p.conclude g)

section InStep

variable {env : Environment} {S : World φ → World φ → Prop} {O : Outcome φ → Outcome φ → Prop}
  {H : Verdict × World φ → Verdict × World φ → Prop} (hH : Conclusive S O H)
  (h : Coupling env Eq S O) {exec exec' : Record → Step φ}
  (hexec : ∀ {r s : Record}, r.Alike Eq s → InStep S O (exec r) (exec' s))
  {next : φ → ρ → ReadStep ρ} {R : ρ → Prop}
  (hrest : ∀ files r rest, R r → (next files r).rest? = some rest → R rest)
  (hnext : ∀ {w v : World φ} {r : ρ}, S w v → R r → next w.files r = next v.files r)
include hH h hexec hrest hnext

/-- Two runs that read their scripts stay in step if in related states they read the same. This has
to be so only for those states of reading that can come about. -/
theorem Conclusive.runReading (n number : Nat) (opened : Option OpenBlock) {r : ρ} (hr : R r)
    {w v : World φ} (hS : S w v) :
    H (runReading exec next n number opened r w) (runReading exec' next n number opened r v) := by
  induction n generalizing number opened r w v with
  | zero => exact hH.exhausted hS
  | succ n ih =>
    have hblock (b : Block) (number : Nat) (opened : Option OpenBlock) (rest : ρ) (hr : R rest) :
        H ((runBlock exec b w).conclude (DeckScript.runReading exec next n number opened rest))
          ((runBlock exec' b v).conclude
            (DeckScript.runReading exec' next n number opened rest)) := by
      have hadvances := precedes_runReading (fun r => h.advances_left hexec r) next n
      exact hH.conclude (hadvances number opened rest)
        ((h.runBlock hexec (.refl h.number b)).related hS) fun _ _ hS => ih number opened hr hS
    have hsame := hnext hS hr
    rw [DeckScript.runReading, DeckScript.runReading, ← hsame]
    cases hread : next w.files r with
    | broken reason => exact hH.broken hS reason
    | ended rest =>
      have hR : R rest := hrest _ _ _ hr (by rw [hread]; rfl)
      cases opened with
      | none => exact hH.complete hS
      | some block => exact hblock block.close number none rest hR
    | line bytes rest =>
      have hR : R rest := hrest _ _ _ hr (by rw [hread]; rfl)
      dsimp only
      rcases Block.step opened ⟨number, Text.Utf8.decode bytes⟩ with ⟨opened, _ | block⟩
      · exact ih _ opened hR hS
      · exact hblock block _ opened rest hR

end InStep

/-! ## Settled lines -/

/-- With files that satisfy `G` these are the lines from a state of reading on, and behind them
reading ends or fails. -/
inductive ReadsLines (next : φ → ρ → ReadStep ρ) (G : φ → Prop) :
    ρ → List (List UInt8) → Option String → Prop
  | line {r rest : ρ} {bytes : List UInt8} {ls : List (List UInt8)} {failure : Option String} :
    (∀ files, G files → next files r = .line bytes rest) → ReadsLines next G rest ls failure →
      ReadsLines next G r (bytes :: ls) failure
  /-- The end is still there if it is tried once more to read on. -/
  | ended {r rest rest' : ρ} : (∀ files, G files → next files r = .ended rest) →
    (∀ files, G files → next files rest = .ended rest') → ReadsLines next G r [] none
  | broken {r : ρ} {reason : String} : (∀ files, G files → next files r = .broken reason) →
    ReadsLines next G r [] (some reason)

/-- The end of a compilation whose blocks are finished. -/
def World.stop (failure : Option String) (w : World φ) : Verdict × World φ :=
  match failure with
  | none => w.complete
  | some reason => (.failed (.read reason), w)

omit [FileStore φ] in
theorem Outcome.verdict_world (source : Source) (o : Outcome φ) :
    (o.verdict source, o.world) = o.conclude (World.stop source.failure) := by
  cases o with
  | refused w | exhausted w => rfl
  | finished w =>
    obtain ⟨bytes, failure⟩ := source
    cases failure with
    | some reason => rfl
    | none =>
      simp only [verdict, conclude, World.stop, World.complete]
      cases w.output.flush <;> rfl

/-- The blocks of lines behind an open block, of which the last is left out if the lines break off
in it. -/
def Source.blocksFrom (opened : Option OpenBlock) (failure : Option String)
    (ls : List SourceLine) : List Block :=
  (Block.split opened ls).1 ++
    match failure with
    | none => ((Block.split opened ls).2.map OpenBlock.close).toList
    | some _ => []

theorem Source.blocksFrom_cons (opened : Option OpenBlock) (failure : Option String)
    (l : SourceLine) (ls : List SourceLine) :
    blocksFrom opened failure (l :: ls) = (Block.step opened l).2.toList ++
      blocksFrom (Block.step opened l).1 failure ls := by
  simp only [blocksFrom, Block.split, List.append_assoc]

section Settled

variable {exec : Record → Step φ} (hexec : ∀ r, Advances (exec r)) {next : φ → ρ → ReadStep ρ}
  {G : φ → Prop}
include hexec

/-- As long as the files satisfy `G`, a run that reads settled lines carries out their blocks. -/
theorem runReading_eq {r : ρ} {ls : List (List UInt8)} {failure : Option String}
    (hreads : ReadsLines next G r ls failure) {n : Nat} (hn : ls.length + 2 ≤ n) (number : Nat)
    (opened : Option OpenBlock) {w : World φ}
    (hG : ∀ u : World φ, w.Precedes u →
      u.Precedes (runReading exec next n number opened r w).2 → G u.files) :
    runReading exec next n number opened r w =
      (runBlocks exec (Source.blocksFrom opened failure (numberedFrom number ls)) w).conclude
        (World.stop failure) := by
  induction hreads generalizing n number opened w with
  | broken hnext =>
    obtain ⟨n, rfl⟩ : ∃ k, n = k + 1 := ⟨n - 1, by omega⟩
    have hw := hG w (.refl w) (precedes_runReading hexec next _ _ _ _ w)
    rw [runReading, hnext w.files hw]
    rfl
  | ended hnext hagain =>
    obtain ⟨n, rfl⟩ : ∃ k, n = k + 2 := ⟨n - 2, by simp only [List.length_nil] at hn; omega⟩
    have hw := hG w (.refl w) (precedes_runReading hexec next _ _ _ _ w)
    rw [runReading, hnext w.files hw] at hG ⊢
    cases opened with
    | none => rfl
    | some block =>
      -- Behind the block that the end closes the lines are still at their end.
      have hblocks : Source.blocksFrom (some block) none (numberedFrom number []) =
          [block.close] := rfl
      rw [hblocks, runBlocks_singleton]
      refine Outcome.conclude_congr fun u hu => ?_
      have hwu := advances_runBlock hexec block.close w
      dsimp only at hG
      rw [hu] at hG hwu
      have hu := hG u hwu (precedes_runReading hexec next _ _ _ _ u)
      rw [runReading, hagain u.files hu]
      rfl
  | @line r rest bytes ls failure hnext hreads ih =>
    obtain ⟨n, rfl⟩ : ∃ k, n = k + 1 := ⟨n - 1, by omega⟩
    have hn : ls.length + 2 ≤ n := by
      rw [List.length_cons] at hn
      omega
    have hw := hG w (.refl w) (precedes_runReading hexec next _ _ _ _ w)
    -- A complete block is carried out before the next line is read, and then come the other lines.
    have hnumbered : numberedFrom number (bytes :: ls) =
        ⟨number, Text.Utf8.decode bytes⟩ :: numberedFrom (number + 1) ls := rfl
    rw [runReading, hnext w.files hw] at hG ⊢
    rw [hnumbered, Source.blocksFrom_cons]
    dsimp only at hG ⊢
    rcases hstep : Block.step opened ⟨number, Text.Utf8.decode bytes⟩ with ⟨opened', _ | block⟩
    · rw [hstep] at hG
      exact ih hn _ _ hG
    · rw [hstep] at hG
      dsimp only [Option.toList_some] at hG ⊢
      rw [runBlocks_append, Outcome.conclude_andThen, runBlocks_singleton]
      -- What the run comes across behind the block it comes across behind its beginning too.
      refine Outcome.conclude_congr fun u hu => ih hn _ _ fun x hux hx => ?_
      have hwu := advances_runBlock hexec block w
      rw [hu] at hG hwu
      exact hG x (hwu.trans hux) hx

end Settled

/-- Let the lines of a script be read one by one, and let them be the same whatever files the run
comes across. Then compiling them while they are read is compiling the script at once. -/
theorem compileReading_eq_compile {env : Environment} {levels : Nat} {next : φ → ρ → ReadStep ρ}
    {G : φ → Prop} {r : ρ} {source : Source} {readings : Nat} {w : World φ}
    (hreads : ReadsLines next G r source.byteLines source.failure)
    (hreadings : source.byteLines.length + 2 ≤ readings)
    (hG : ∀ u : World φ, w.renew.Precedes u →
      u.Precedes (compileReading env levels next readings r w).2 → G u.files) :
    compileReading env levels next readings r w = compile env levels source w := by
  have hrun := runReading_eq (advances_dispatch env levels) hreads hreadings 1 none hG
  rw [compileReading, hrun, compile, Outcome.verdict_world, run, Source.blocks_eq_blocksOf,
    Source.lines_eq_numberedFrom]
  rfl

end DeckScript
