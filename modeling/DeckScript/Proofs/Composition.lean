import DeckScript.Proofs.Levels
import DeckScript.Proofs.ReadingRuns

/-!
# Compiling a script in two parts

A script is compiled in two parts, one after the other, each with an output that takes everything.
When the first part is whole lines and leaves no block open, this does the same as compiling the
whole script at once. The variables, the random stream and the files are handed on from the first
part to the second, and what is written, reported and asked of the surroundings comes in the same
order. Only the lines of the second part are numbered from one again.

## Main definitions

* `World.TakesAll` — the output takes everything
* `World.requests` — what was asked of the surroundings

## Main results

* `exists_finished_of_unlimited` — a run whose output takes everything is finished if it ends
* `compile_append` — compiling two parts and compiling the whole
-/

namespace DeckScript

variable {φ : Type}

/-! ## Outputs that take everything -/

/-- The output takes everything, and its end is reached by all of it. -/
def World.TakesAll (w : World φ) : Prop :=
  w.output = { Output.unlimited with bytes := w.output.bytes }

/-- The same outcome twice, which is no refused write, with an output that takes everything. -/
inductive Unrefused : Outcome φ → Outcome φ → Prop
  | finished {w : World φ} : w.TakesAll → Unrefused (.finished w) (.finished w)
  | exhausted {w : World φ} : w.TakesAll → Unrefused (.exhausted w) (.exhausted w)

theorem World.TakesAll.write {w : World φ} (h : w.TakesAll) (data : ByteArray) :
    Unrefused (w.write data) (w.write data) := by
  have hwrite : w.output.write data =
      ({ Output.unlimited with bytes := w.output.bytes ++ data }, true) := by
    rw [h]
    rfl
  rw [World.write, hwrite]
  exact .finished rfl

variable [FileStore φ]

/-- A run stays in step with itself, and no write is refused. -/
theorem lockstep_unrefused (env : Environment) :
    Lockstep env Eq (fun w v : World φ => w = v ∧ w.TakesAll) Unrefused where
  number _ := rfl
  ask _ _ _ hrs _ := by rw [hrs.eq]
  store h := by rw [h.1]
  random h := by rw [h.1]
  files h := by rw [h.1]
  calls h := by rw [h.1]
  assign h _ _ := ⟨by rw [h.1], h.2⟩
  save h _ := ⟨by rw [h.1], h.2⟩
  note h _ := ⟨by rw [h.1], h.2⟩
  trace h hN _ := ⟨by rw [h.1, hN], h.2⟩
  blame h hN _ := ⟨by rw [h.1, hN], h.2⟩
  enter h _ := ⟨by rw [h.1], h.2⟩
  leave h _ _ := by
    cases h with
    | finished h => exact .finished h
    | exhausted h => exact .exhausted h
  shallow h := by rw [h.1]; exact id
  deep h := by rw [h.1]; exact .inl
  finished h := by
    obtain ⟨rfl, h⟩ := h
    exact .finished h
  write h data := by
    obtain ⟨rfl, h⟩ := h
    exact h.write data
  andThen _ _ h hfg := by
    cases h with
    | finished h => exact hfg _ _ ⟨rfl, h⟩
    | exhausted h => exact .exhausted h

theorem unrefused_dispatch (env : Environment) (levels : Nat) {r s : Record}
    (hrs : r.Alike Eq s) :
    InStep (fun w v : World φ => w = v ∧ w.TakesAll) Unrefused (dispatch env levels r)
      (dispatch env levels s) := by
  induction levels generalizing r s with
  | zero =>
    refine ⟨advances_dispatch env 0 r, advances_dispatch env 0 s, fun h => ?_⟩
    obtain ⟨rfl, h⟩ := h
    exact .exhausted h
  | succ levels ih => exact (lockstep_unrefused env).coupling.dispatch_succ ih hrs

theorem unrefused_run (env : Environment) (levels : Nat) (source : Source) (w : World φ) :
    Unrefused (run env levels source { w with output := .unlimited })
      (run env levels source { w with output := .unlimited }) := by
  have hblocks := (lockstep_unrefused (φ := φ) env).coupling.runBlocks
    (unrefused_dispatch env levels)
    (List.forall₂_same.2 fun b _ => .refl (fun _ => rfl) b : List.Forall₂ _ source.blocks _)
  exact hblocks.related ⟨rfl, rfl⟩

/-- A run whose output takes everything is finished if it does not exhaust its levels. -/
theorem exists_finished_of_unlimited {env : Environment} {levels : Nat} {source : Source}
    {w : World φ}
    (h : (compile env levels source { w with output := .unlimited }).1 ≠ .exhausted) :
    ∃ u, run env levels source { w with output := .unlimited } = .finished u ∧ u.TakesAll := by
  have hrun := unrefused_run env levels source w
  rw [compile, ne_eq, Outcome.verdict_eq_exhausted_iff] at h
  revert h hrun
  generalize run env levels source { w with output := .unlimited } = o
  intro h hrun
  cases hrun with
  | finished hu => exact ⟨_, rfl, hu⟩
  | exhausted hu => exact (h rfl).elim

/-- A compilation that reads its script and whose output takes everything fails only where reading
does. -/
theorem exists_read_of_failed {ρ : Type} {env : Environment} {levels readings : Nat}
    {next : φ → ρ → ReadStep ρ} {r : ρ} {w : World φ} {failure : Failure}
    (h : (compileReading env levels next readings r { w with output := .unlimited }).1 =
      .failed failure) : ∃ reason, failure = .read reason := by
  have hconclusive : Conclusive (fun w v : World φ => w = v ∧ w.TakesAll) Unrefused
      (fun a _ => ∀ failure, a.1 = .failed failure → ∃ reason, failure = .read reason) := by
    refine ⟨fun {w _} hS failure h => ?_, fun _ reason failure h => ?_, fun _ failure h => ?_,
      fun _ hop hfg => ?_⟩
    · have hflush : w.output.flush = none := by
        rw [hS.2]
        rfl
      rw [World.complete, hflush] at h
      cases h
    · cases h
      exact ⟨reason, rfl⟩
    · cases h
    · cases hop with
      | finished hw => exact hfg _ _ ⟨rfl, hw⟩
      | exhausted hw =>
        intro failure h
        cases h
  have hlockstep := lockstep_unrefused (φ := φ) env
  exact hconclusive.runReading hlockstep.coupling (unrefused_dispatch env levels)
    (R := fun _ => True) (fun _ _ _ _ _ => trivial) (fun hS _ => by rw [hS.1]) readings 1 none
    trivial (w := { w.renew with output := .unlimited }) ⟨rfl, rfl⟩ failure h

/-! ## The second part behind the first -/

/-- What was asked of the surroundings, the latest first. -/
def World.requests (w : World φ) : List Event := w.journal.filter fun e => !e.isTrace

section Parts

variable {env : Environment}
  (henv : ∀ keyword d, env.vocabulary.get? keyword = some d → d.IgnoresPlace)
include henv

/-- Behind a finished first part, the second part is run as it is run by itself. -/
theorem run_append {a : List UInt8} (ha : Source.Settled a) (b : List UInt8)
    (failure : Option String) {levels : Nat} {w u : World φ}
    (hfirst : run env levels ⟨a, none⟩ w = .finished u) (hu : u.TakesAll) :
    (run env levels ⟨a ++ b, failure⟩ w).map (.behind ⟨id, .empty, #[]⟩) =
      (run env levels ⟨b, failure⟩ { u with output := .unlimited }).map
        (.behind ⟨(· + (Source.lines ⟨a, none⟩).length), u.output.bytes,
          u.report.diagnostics⟩) := by
  obtain ⟨k, hk⟩ : ∃ k, k = (Source.lines ⟨a, none⟩).length := ⟨_, rfl⟩
  obtain ⟨ls, hls⟩ : ∃ ls, ls = Source.byteLines ⟨b, failure⟩ := ⟨_, rfl⟩
  let lead : Lead := ⟨(· + k), u.output.bytes, u.report.diagnostics⟩
  let blank : Lead := ⟨id, .empty, #[]⟩
  let blocks := Source.blocksOf failure (numberedFrom (1 + k) ls)
  have hincludes : u.includes = [] := by
    have hrun := (precedes_run env levels ⟨a, none⟩ w).includes
    rwa [hfirst] at hrun
  have hwhole : run env levels ⟨a ++ b, failure⟩ w = runBlocks (dispatch env levels) blocks u := by
    have hfinished : runBlocks (dispatch env levels) (Source.blocks ⟨a, none⟩) w.renew =
        .finished u := hfirst
    rw [run, Source.blocks_append ha, ← hk, ← hls, runBlocks_append, hfinished,
      Outcome.finished_andThen]
  have hsecond : run env levels ⟨b, failure⟩ { u with output := .unlimited } =
      runBlocks (dispatch env levels) (Source.blocksOf failure (numberedFrom 1 ls))
        (World.renew { u with output := .unlimited }) := by
    rw [run, Source.blocks_eq_blocksOf, Source.lines_eq_numberedFrom, hls]
  -- Both runs start from the same state, once each is looked at behind what is in front of it.
  have hstart : (World.renew { u with output := .unlimited }).behind lead = u.behind blank := by
    have houtput : Output.unlimited.behind u.output.bytes = u.output.behind .empty := by
      rw [hu]
      simp [Output.behind, Output.unlimited]
    have hreport : u.report.diagnostics.map (Diagnostic.renumber id) = u.report.diagnostics := by
      rw [Diagnostic.renumber_id, Array.map_id]
    simp only [World.behind, World.renew, houtput, hreport, hincludes, lead, blank]
    simp [Report.empty]
  have hnumber (n : Nat) : blank.Numbers [] n n := rfl
  have hsame : List.Forall₂ (Block.Alike (blank.Numbers [])) blocks blocks :=
    List.forall₂_same.2 fun b _ => .refl hnumber b
  have hraised : List.Forall₂ (Block.Alike (lead.Numbers []))
      (Source.blocksOf failure (numberedFrom 1 ls)) blocks := by
    refine Source.forall₂_blocksOf (forall₂_numberedFrom (fun n => ?_) ls) failure
    change 1 + k + n = 1 + n + k
    omega
  rw [hwhole, hsecond, ← hk, (commutes_blocks henv levels hsame).map_behind u hincludes,
    (commutes_blocks henv levels hraised).map_behind _ rfl, hstart]

/-- Let the first part of a script be whole lines that leave no block open, and let no directive of
the vocabulary look at the number of its line or run a text as a script. If compiling the first
part ends, then compiling the second one behind it ends as compiling the whole does. The outputs of
the two parts make up the output of the whole, and their reports its report once the lines of the
second part are numbered behind those of the first. The variables, the random stream, the files and
all that was asked of the surroundings are the same. -/
theorem compile_append {a : List UInt8} (ha : Source.Settled a) (b : List UInt8)
    (failure : Option String) {levels : Nat} {w : World φ}
    (hends : (compile env levels ⟨a, none⟩ { w with output := .unlimited }).1 ≠ .exhausted) :
    let first := compile env levels ⟨a, none⟩ { w with output := .unlimited }
    let second := compile env levels ⟨b, failure⟩ { first.2 with output := .unlimited }
    let whole := compile env levels ⟨a ++ b, failure⟩ { w with output := .unlimited }
    first.1 = .completed ∧ whole.1 = second.1 ∧
      whole.2.output.bytes = first.2.output.bytes ++ second.2.output.bytes ∧
      whole.2.report.toList = first.2.report.toList ++ second.2.report.toList.map
        (Diagnostic.renumber (· + (Source.lines ⟨a, none⟩).length)) ∧
      whole.2.store = second.2.store ∧ whole.2.random = second.2.random ∧
      whole.2.files = second.2.files ∧ whole.2.requests = second.2.requests := by
  intro first second whole
  obtain ⟨u, hfirst, hu⟩ := exists_finished_of_unlimited hends
  have hbehind := run_append henv ha b failure hfirst hu
  have hunrefused := unrefused_run env levels ⟨b, failure⟩ u
  have hcompleted : first = (.completed, u) := by
    have hflush : u.output.flush = none := by
      rw [hu]
      rfl
    simp only [first, compile, hfirst, Outcome.world, Outcome.verdict, hflush]
  simp only [second, whole, hcompleted, compile]
  revert hbehind hunrefused
  generalize run env levels ⟨a ++ b, failure⟩ { w with output := .unlimited } = o
  generalize run env levels ⟨b, failure⟩ { u with output := .unlimited } = p
  intro hbehind hunrefused
  have hworld := congrArg Outcome.world hbehind
  rw [Outcome.world_map, Outcome.world_map] at hworld
  have hverdict : o.verdict ⟨a ++ b, failure⟩ = p.verdict ⟨b, failure⟩ := by
    cases hunrefused with
    | exhausted hv =>
      cases o with
      | exhausted x => rfl
      | finished x | refused x => cases hbehind
    | @finished v hv =>
      cases o with
      | exhausted x | refused x => cases hbehind
      | finished x =>
        -- Both outputs deliver what they took.
        have hv : v.output.reach = none := by
          rw [hv]
          rfl
        have hx : x.output.reach = none := by
          have hreach := congrArg (fun w => w.output.reach) hworld
          exact hreach.trans hv
        simp only [Outcome.verdict, Output.flush, hx, hv]
  have hbytes := congrArg (fun w => w.output.bytes) hworld
  have hreport := congrArg (fun w => w.report.toList) hworld
  have hstore := congrArg World.store hworld
  have hrandom := congrArg World.random hworld
  have hfiles := congrArg World.files hworld
  have hrequests := congrArg World.journal hworld
  simp only [World.behind, Output.behind, Report.toList, Diagnostic.renumber_id, Array.map_id,
    Array.toList_append, List.nil_append, Array.toList_map, ByteArray.empty_append]
    at hbytes hreport
  exact ⟨trivial, hverdict, hbytes, hreport, hstore, hrandom, hfiles, hrequests⟩

end Parts

/-! ## A fault in each part -/

/-- The first part of a script: an assignment, and a line with too many tokens. -/
def firstBytes : List UInt8 := Text.Utf8.bytes "x = 5\nslide a b c d\n"

/-- The second part, which uses the variable. -/
def secondBytes : List UInt8 := Text.Utf8.bytes "y = x\nslide a b c d\n"

theorem settled_firstBytes : Source.Settled firstBytes where
  whole := by unfold Source.WholeLines; decide +kernel
  closed := by decide +kernel

theorem compile_append_slides :
    let env : Environment := ⟨.standard, 16, false, .ofAnswers fun _ => .ok .empty⟩
    let w : World MemoryFiles := ⟨.empty, .ofSeed 1, .empty, .empty, .unlimited, [], []⟩
    let first := compile env 1 ⟨firstBytes, none⟩ w
    let second := compile env 1 ⟨secondBytes, none⟩ { first.2 with output := .unlimited }
    let whole := compile env 1 ⟨firstBytes ++ secondBytes, none⟩ w
    Source.Settled firstBytes ∧ first.1 = .completed ∧ whole.1 = second.1 ∧
      second.2.report.toList.map (·.line) = [2] ∧ whole.2.report.toList.map (·.line) = [2, 4] ∧
      whole.2.store = second.2.store ∧ second.2.store.get? "y" = some "5" := by
  intro env w first second whole
  have hends : (compile env 1 ⟨firstBytes, none⟩ { w with output := .unlimited }).1 ≠
      .exhausted := by decide +kernel
  obtain ⟨hfirst, hwhole, -, hreport, hstore, -⟩ :=
    compile_append (fun _ _ => Vocabulary.ignoresPlace) settled_firstBytes secondBytes none hends
  refine ⟨settled_firstBytes, hfirst, hwhole, by decide +kernel, ?_, hstore, by decide +kernel⟩
  rw [hreport]
  decide +kernel

end DeckScript
