import DeckScript.Proofs.FaultPlaces
import DeckScript.Proofs.StoreInvariant

/-!
# The files that are being included

The list of the files that are being included is a stack: a file goes on top of it when its lines
begin to be carried out, and it is taken off when these are over, however that came about. So
throughout a frame the list is what it was at the start, with the frame's own file on top. It never
gets longer than the limit: there a file is refused before it is opened.

## Main definitions

* `Frame.Passes` — a state of a frame, outside of the files that it includes

## Main results

* `Frame.Passes.includes_eq` — throughout a frame the same files are being included
* `Call.Asks.dispatch_at_limit` — at the limit, including a file is a fault and nothing else
* `includes_stack` — the files that are being included at every moment of a run
-/

namespace DeckScript

variable {φ : Type} [FileStore φ] {env : Environment}

/-- A state of the frame: at its start, around the acts that are performed in it, or at its end. -/
inductive Frame.Passes (env : Environment) (f : Frame φ) : World φ → Prop
  | start : Passes env f f.start
  | before {l : SourceLine} {a : Act φ} : f.Performs env l a → Passes env f a.world
  | after {l : SourceLine} {p : Call φ} (levels : Nat) : f.Performs env l (.call p) →
    Passes env f (dispatch env levels p.record p.world).world
  | finish (levels : Nat) :
    Passes env f (runBlocks (dispatch env levels) f.source.blocks f.start).world

/-- A frame only goes on from its start. -/
theorem Frame.Passes.precedes {f : Frame φ} {v : World φ} (h : f.Passes env v) :
    f.start.Precedes v := by
  cases h with
  | start => exact .refl _
  | before hperforms => exact hperforms.precedes
  | @after l p levels hperforms =>
    exact hperforms.precedes.trans (advances_dispatch env levels p.record p.world)
  | finish levels => exact advances_runBlocks (advances_dispatch env levels) _ _

/-- Throughout a frame the same files are being included. -/
theorem Frame.Passes.includes_eq {f : Frame φ} {v : World φ} (h : f.Passes env v) :
    v.includes = f.start.includes :=
  h.precedes.includes

/-- At every moment of a run no more files are being included than the limit allows. -/
theorem Moment.length_includes_le {source : Source} {w v : World φ} (h : Moment env source w v) :
    v.includes.length ≤ env.includeLimit := by
  cases h with
  | start => exact Nat.zero_le _
  | before hp => exact hp.depth_le
  | @after p levels hp =>
    rw [(advances_dispatch env levels p.record p.world).includes]
    exact hp.depth_le
  | finish levels =>
    rw [(precedes_run env levels source w).includes]
    exact Nat.zero_le _

omit [FileStore φ] in
/-- The journal of a record that is about to be carried out tells nothing but that. -/
theorem exists_journal_announce (env : Environment) (r : Record) (w : World φ) :
    ∃ events, (∀ e ∈ events, e = .traced r.line r.tokens) ∧
      announce env r w = { w with journal := events ++ w.journal } := by
  rw [announce]
  split
  · exact ⟨[.traced r.line r.tokens], by simp, rfl⟩
  · exact ⟨[], by simp, rfl⟩

/-- At the limit a file is not opened, and nothing is carried out: all that changes is the report,
by one fault. -/
theorem Call.Asks.dispatch_at_limit {p : Call φ} {name : String} (h : p.Asks env (.enter name))
    (hlimit : env.includeLimit ≤ p.world.includes.length) (n : Nat) :
    acts env (n + 1) p.record p.world = [.call p] ∧
    ∃ events, (∀ e ∈ events, e = .traced p.record.line p.record.tokens) ∧
      dispatch env (n + 1) p.record p.world = .finished { p.world with
        report := p.world.report.push
          ⟨p.record.line, p.world.includes.head?, .depth name env.includeLimit⟩
        journal := events ++ p.world.journal } := by
  constructor
  · obtain ⟨d, hd, hask⟩ := h
    simp only [acts, hd, hask, nestedActs, announce_includes, if_pos hlimit]
  · obtain ⟨events, htraced, hannounce⟩ := exists_journal_announce env p.record p.world
    refine ⟨events, htraced, ?_⟩
    rw [h.dispatch_of_limit hlimit, hannounce]
    rfl

/-- With the standard vocabulary the files that are being included are a stack. At no moment of a
run there are more of them than the limit allows, and throughout a frame they are the same, with the
file of the frame on top. At the limit a line that includes a file has a fault of the class
`resource`, and changes nothing else. Throughout an included file that file stands on top of what
was there before, and after it all is as before, however its lines ended. After a compilation the
list is empty, and every fault of the report names the file of the frame in which it was found. -/
theorem includes_stack (includeLimit : Nat) (traced : Bool)
    (runner : Runner) (source : Source) (w : World φ) :
    let env : Environment := ⟨.standard, includeLimit, traced, runner⟩
    (∀ v, Moment env source w v → v.includes.length ≤ includeLimit) ∧
    (∀ file f v, Runs env source w file f → f.Passes env v →
      v.includes = f.start.includes ∧ v.includes.head? = file ∧
        v.includes.length ≤ includeLimit) ∧
    (∀ p : Call φ, ∀ name, p.Asks env (.enter name) →
      includeLimit ≤ p.world.includes.length → ∀ n,
        acts env (n + 1) p.record p.world = [.call p] ∧
        (Fault.depth name includeLimit).kind = .resource ∧
        ∃ events, (∀ e ∈ events, e = .traced p.record.line p.record.tokens) ∧
          dispatch env (n + 1) p.record p.world = .finished { p.world with
            report := p.world.report.push
              ⟨p.record.line, p.world.includes.head?, .depth name includeLimit⟩
            journal := events ++ p.world.journal }) ∧
    (∀ file f l p name contents, Runs env source w file f → f.Performs env l (.call p) →
      p.Asks env (.enter name) → p.world.includes.length < includeLimit →
      FileStore.read p.world.files name = .ok contents →
        (∀ v, Frame.Passes env ⟨.ofText contents, (p.opening env name).enter name⟩ v →
          v.includes = name :: f.start.includes) ∧
        ∀ levels, (dispatch env levels p.record p.world).world.includes = f.start.includes) ∧
    (∀ levels (r : Record) (v : World φ), (dispatch env levels r v).world.includes = v.includes) ∧
    ∀ levels, (compile env levels source w).2.includes = [] ∧
      ∀ d ∈ (compile env levels source w).2.report.toList, ∃ f l a,
        Runs env source w d.file f ∧ f.Performs env l a ∧ f.Passes env a.world ∧
          a.diagnostic? env = some d := by
  intro env
  refine ⟨?_, ?_, ?_, ?_, ?_, ?_⟩
  · intro v hv
    exact hv.length_includes_le
  · intro file f v hf hv
    rw [hv.includes_eq]
    exact ⟨rfl, hf.head?_includes, hf.length_includes_le⟩
  · intro p name hasks hlimit n
    obtain ⟨hacts, hdispatch⟩ := hasks.dispatch_at_limit hlimit n
    exact ⟨hacts, rfl, hdispatch⟩
  · intro file f l p name contents hf hperforms hasks hdepth hread
    have hbefore : p.world.includes = f.start.includes := hperforms.precedes.includes
    refine ⟨fun v hv => ?_, fun levels => ?_⟩
    · rw [hv.includes_eq, ← hbefore]
      simp only [World.enter, Call.opening, World.note, Call.announce_includes]
    · rw [(advances_dispatch env levels p.record p.world).includes, hbefore]
  · intro levels r v
    exact (advances_dispatch env levels r v).includes
  · intro levels
    refine ⟨(precedes_run env levels source w).includes, ?_⟩
    intro d hd
    obtain ⟨f, l, a, hf, hperforms, hdiagnostic, -⟩ := exists_performs_of_mem_report rfl hd
    exact ⟨f, l, a, hf, hperforms, .before hperforms, hdiagnostic⟩

end DeckScript
