import DeckScript.Proofs.Lockstep
import DeckScript.Proofs.ReadingRuns

/-!
# Runs with a limited output

A run is compared with the same run whose output takes `n` bytes and refuses the next one. The two
are in lockstep while what they write fits. When it fits no more, the limited run is cut short at
once, wherever the line stands that writes: it has the first `n` bytes, and what it reported and
asked of its surroundings is what the other run had done up to there.

## Main definitions

* `World.Fits` — two states that differ in the limit of their output only
* `World.CutShort` — a state in which a run was cut short, beside one that the other run reaches
* `Limited`, `LimitedEnd` — the outcomes of the two runs, and the ends of the two compilations

## Main results

* `lockstep_limited` — a run and the limited one are in lockstep
* `compile_limited` — what a compilation with a limited output leaves behind
* `compileReading_limited` — the same for a compilation that reads its script
-/

namespace DeckScript

variable {φ : Type}

/-- The output of `v` takes `n` bytes in all and has not refused any; the output of `w` takes
everything, and otherwise the states are the same. How many of its bytes get through is left open
for the output of `v`. -/
structure World.Fits (n : Nat) (reach : Option Nat) (refusal : String) (w v : World φ) : Prop where
  room : w.output.room = none
  through : w.output.reach = none
  size : w.output.bytes.size ≤ n
  eq : v =
    { w with output := ⟨w.output.bytes, some (n - w.output.bytes.size), reach, refusal⟩ }

/-- The run that stands at `w` wrote more than `n` bytes, and the limited one was cut short at `v`
when it came to the first of them that is too many. -/
structure World.CutShort [FileStore φ] (n : Nat) (refusal : String) (w v : World φ) : Prop where
  size : n < w.output.bytes.size
  bytes : v.output.bytes = w.output.bytes.extract 0 n
  refusal : v.output.refusal = refusal
  report : v.report.toList <+: w.report.toList
  journal : ∃ later, w.journal = later ++ v.journal ∧ w.files = replay later v.files

/-- The outcomes of a run and of the limited one. -/
inductive Limited [FileStore φ] (n : Nat) (reach : Option Nat) (refusal : String) :
    Outcome φ → Outcome φ → Prop
  | finished {w v : World φ} :
    w.Fits n reach refusal v → Limited n reach refusal (.finished w) (.finished v)
  | exhausted {w v : World φ} :
    w.Fits n reach refusal v → Limited n reach refusal (.exhausted w) (.exhausted v)
  | refused {o : Outcome φ} {v : World φ} :
    o.world.CutShort n refusal v → Limited n reach refusal o (.refused v)

/-- As many bytes as there are, or more, are all of them. -/
theorem extract_eq_self_of_size_le {b : ByteArray} {n : Nat} (h : b.size ≤ n) :
    b.extract 0 n = b := by
  ext1
  rw [ByteArray.data_extract, Array.extract_eq_self_of_le h]

namespace World

variable {n : Nat} {reach : Option Nat} {refusal : String} {w v : World φ}

/-- States that fit still do after a change that leaves their outputs alone. -/
theorem Fits.map (h : w.Fits n reach refusal v) (f : World φ → World φ)
    (hf : ∀ (u : World φ) output, f { u with output } = { f u with output })
    (houtput : ∀ u : World φ, (f u).output = u.output) : (f w).Fits n reach refusal (f v) where
  room := (congrArg Output.room (houtput w)).trans h.room
  through := (congrArg Output.reach (houtput w)).trans h.through
  size := houtput w ▸ h.size
  eq := by rw [h.eq, hf, houtput]

variable [FileStore φ]

/-- The first bytes stay the same when the longer run goes on. -/
theorem CutShort.precedes {u : World φ} (h : w.CutShort n refusal v) (hwu : w.Precedes u) :
    u.CutShort n refusal v where
  size := by
    obtain ⟨data, hdata⟩ := hwu.bytes
    have := h.size
    rw [hdata, ByteArray.size_append]
    omega
  bytes := by
    obtain ⟨data, hdata⟩ := hwu.bytes
    have hrest : data.extract (0 - w.output.bytes.size) (n - w.output.bytes.size) = .empty := by
      have := h.size
      rw [ByteArray.extract_eq_empty_iff]
      omega
    rw [hdata, ByteArray.extract_append, hrest, ByteArray.append_empty, h.bytes]
  refusal := h.refusal
  report := h.report.trans hwu.report
  journal := by
    obtain ⟨later, hlater, hfiles⟩ := h.journal
    obtain ⟨events, hevents, hfiles'⟩ := hwu.journal
    refine ⟨events ++ later, ?_, ?_⟩
    · rw [hevents, hlater, List.append_assoc]
    · rw [hfiles', hfiles, replay_append]

/-- The limited run takes the bytes that still fit and is cut short if there are more. -/
theorem Fits.write (h : w.Fits n reach refusal v) (data : ByteArray) :
    Limited n reach refusal (w.write data) (v.write data) := by
  have hw : w.write data =
      .finished { w with output := { w.output with bytes := w.output.bytes ++ data } } := by
    simp only [World.write, Output.write, h.room]
  rw [hw, h.eq, World.write, Output.write]
  dsimp only
  by_cases hfits : data.size ≤ n - w.output.bytes.size
  · rw [if_pos hfits]
    refine .finished ⟨h.room, h.through, ?_, ?_⟩
    · have := h.size
      rw [ByteArray.size_append]
      omega
    · rw [ByteArray.size_append, Nat.sub_add_eq]
  · rw [if_neg hfits]
    refine .refused ⟨?_, ?_, rfl, List.prefix_rfl, [], rfl, rfl⟩
    · rw [Outcome.world, ByteArray.size_append]
      omega
    · -- All that was written before is among the first bytes.
      have hbefore := extract_eq_self_of_size_le h.size
      rw [Outcome.world, ByteArray.extract_append, hbefore, Nat.zero_sub]

end World

variable [FileStore φ]

theorem Limited.leave {n : Nat} {reach : Option Nat} {refusal : String} {o p : Outcome φ}
    (h : Limited n reach refusal o p) :
    Limited n reach refusal (o.map World.leave) (p.map World.leave) := by
  cases h with
  | finished h => exact .finished (h.map World.leave (fun _ _ => rfl) fun _ => rfl)
  | exhausted h => exact .exhausted (h.map World.leave (fun _ _ => rfl) fun _ => rfl)
  | @refused o v h =>
    refine .refused ?_
    rw [Outcome.world_map]
    exact ⟨h.size, h.bytes, h.refusal, h.report, h.journal⟩

theorem Limited.andThen {n : Nat} {reach : Option Nat} {refusal : String} {o p : Outcome φ}
    {f g : Step φ} (hf : Advances f) (h : Limited n reach refusal o p)
    (hfg : ∀ w v, w.Fits n reach refusal v → Limited n reach refusal (f w) (g v)) :
    Limited n reach refusal (o.andThen f) (p.andThen g) := by
  cases h with
  | finished h => exact hfg _ _ h
  | exhausted h => exact .exhausted h
  | refused h =>
    -- The longer run may go on, but its first bytes are settled.
    exact .refused (h.precedes (Outcome.precedes_andThen (.refl o.world) hf))

/-- A run and the limited one are in lockstep, until the limited one is cut short. -/
theorem lockstep_limited (env : Environment) (n : Nat) (reach : Option Nat) (refusal : String) :
    Lockstep env Eq (World.Fits n reach refusal) (Limited (φ := φ) n reach refusal) where
  number _ := rfl
  ask _ _ _ hrs _ := by rw [hrs.eq]
  store h := by rw [h.eq]
  random h := by rw [h.eq]
  files h := by rw [h.eq]
  calls h := by rw [h.eq]; rfl
  assign h store random :=
    h.map (fun w => { w with store, random }) (fun _ _ => rfl) fun _ => rfl
  save h files := h.map (fun w => { w with files }) (fun _ _ => rfl) fun _ => rfl
  note h e := h.map (fun w => w.note e) (fun _ _ => rfl) fun _ => rfl
  trace h hN tokens := hN ▸ h.map (fun w => w.note (.traced _ tokens)) (fun _ _ => rfl) fun _ => rfl
  blame h hN fault := hN ▸ h.map (fun w => w.blame _ fault) (fun _ _ => rfl) fun _ => rfl
  enter h name := h.map (fun w => w.enter name) (fun _ _ => rfl) fun _ => rfl
  leave h _ _ := h.leave
  shallow h := by rw [h.eq]; exact id
  deep h := by rw [h.eq]; exact .inl
  finished h := .finished h
  write h data := h.write data
  andThen hf _ h hfg := h.andThen hf hfg

theorem limited_dispatch (env : Environment) (n : Nat) (reach : Option Nat) (refusal : String)
    (levels : Nat) {r s : Record} (hrs : r.Alike Eq s) :
    InStep (World.Fits n reach refusal) (Limited n reach refusal)
      (dispatch env levels r : Step φ) (dispatch env levels s) := by
  induction levels generalizing r s with
  | zero =>
    exact ⟨advances_dispatch env 0 r, advances_dispatch env 0 s, fun h => .exhausted h⟩
  | succ levels ih => exact (lockstep_limited env n reach refusal).coupling.dispatch_succ ih hrs

/-- Running a script with a limited output, beside running it with one that takes everything. -/
theorem limited_run (env : Environment) (levels : Nat) (source : Source) (w : World φ) (n : Nat)
    (refusal : String) :
    Limited n none refusal (run env levels source { w with output := .unlimited })
      (run env levels source { w with output := .limited n refusal }) := by
  have hblocks := (lockstep_limited (φ := φ) env n none refusal).coupling.runBlocks
    (limited_dispatch env n none refusal levels)
    (List.forall₂_same.2 fun b _ => .refl (fun _ => rfl) b : List.Forall₂ _ source.blocks _)
  exact hblocks.related ⟨rfl, rfl, Nat.zero_le n, rfl⟩

omit [FileStore φ] in
/-- Both outputs deliver what they took, so a script that fits ends in the same way. -/
theorem World.Fits.verdict {n : Nat} {refusal : String} {w v : World φ}
    (h : w.Fits n none refusal v) (source : Source) :
    (Outcome.finished v).verdict source = (Outcome.finished w).verdict source := by
  have hw : w.output.flush = none := by rw [Output.flush, h.through]
  have hv : v.output.flush = none := by rw [h.eq, Output.flush]
  simp only [Outcome.verdict, hw, hv]

/-- A compilation whose output takes `n` bytes does the same as one whose output takes everything
if that one writes no more than `n` bytes. Otherwise it fails with the refusal of the output; the
output has the first `n` bytes, the report is a first part of the other report, and the events, of
which the files are the result, are a first part of the other events. -/
theorem compile_limited (env : Environment) (levels : Nat) (source : Source) (w : World φ)
    (n : Nat) (refusal : String) :
    let full := compile env levels source { w with output := .unlimited }
    let cut := compile env levels source { w with output := .limited n refusal }
    let bytes := full.2.output.bytes
    (bytes.size ≤ n → cut = (full.1,
      { full.2 with output := ⟨bytes, some (n - bytes.size), none, refusal⟩ })) ∧
    (n < bytes.size → cut.1 = .failed (.write refusal) ∧
      cut.2.output.bytes = bytes.extract 0 n ∧
      cut.2.report.toList <+: full.2.report.toList ∧
      ∃ earlier later, cut.2.journal = earlier ++ w.journal ∧
        full.2.journal = later ++ cut.2.journal ∧
        cut.2.files = replay earlier w.files ∧ full.2.files = replay later cut.2.files) := by
  intro full cut bytes
  have hcut := precedes_run env levels source { w with output := .limited n refusal }
  have hlimited := limited_run env levels source w n refusal
  simp only [full, cut, bytes, compile]
  revert hcut hlimited
  generalize run env levels source { w with output := .unlimited } = o
  generalize run env levels source { w with output := .limited n refusal } = p
  intro hcut hlimited
  cases hlimited with
  | finished h =>
    exact ⟨fun _ => Prod.ext (h.verdict source) h.eq, fun hn => absurd hn (Nat.not_lt.2 h.size)⟩
  | exhausted h =>
    exact ⟨fun _ => Prod.ext rfl h.eq, fun hn => absurd hn (Nat.not_lt.2 h.size)⟩
  | refused h =>
    refine ⟨fun hn => absurd h.size (Nat.not_lt.2 hn), fun _ => ⟨?_, h.bytes, h.report, ?_⟩⟩
    · rw [← h.refusal]
      rfl
    · obtain ⟨earlier, hearlier, hfiles⟩ := hcut.journal
      obtain ⟨later, hlater, hfiles'⟩ := h.journal
      exact ⟨earlier, later, hearlier, hlater, hfiles, hfiles'⟩

/-! ## Compilations that read their script -/

/-- The ends of a compilation and of the limited one. If all is taken, only the flush at the end may
make a difference. -/
inductive LimitedEnd (n : Nat) (reach : Option Nat) (refusal : String) :
    Verdict × World φ → Verdict × World φ → Prop
  | complete {w v : World φ} : w.Fits n reach refusal v →
    LimitedEnd n reach refusal (.completed, w) v.complete
  | broken {w v : World φ} {reason : String} : w.Fits n reach refusal v →
    LimitedEnd n reach refusal (.failed (.read reason), w) (.failed (.read reason), v)
  | exhausted {w v : World φ} : w.Fits n reach refusal v →
    LimitedEnd n reach refusal (.exhausted, w) (.exhausted, v)
  | refused {full : Verdict × World φ} {v : World φ} : full.2.CutShort n refusal v →
    LimitedEnd n reach refusal full (.failed (.write refusal), v)

theorem conclusive_limited (n : Nat) (reach : Option Nat) (refusal : String) :
    Conclusive (World.Fits (φ := φ) n reach refusal) (Limited n reach refusal)
      (LimitedEnd n reach refusal) where
  complete {w v} h := by
    have hw : w.complete = (.completed, w) := by rw [World.complete, Output.flush, h.through]
    rw [hw]
    exact .complete h
  broken h _ := .broken h
  exhausted h := .exhausted h
  conclude {o p f g} hf h hfg := by
    cases h with
    | finished h => exact hfg _ _ h
    | exhausted h => exact .exhausted h
    | refused h =>
      have hcut := h.precedes (Outcome.precedes_conclude (.refl o.world) hf)
      rw [Outcome.conclude, h.refusal]
      exact .refused hcut

/-- A compilation that reads its script, beside the same one with a limited output. -/
theorem compileReading_limited {ρ : Type} (env : Environment) (levels : Nat)
    (next : φ → ρ → ReadStep ρ) (readings : Nat) (r : ρ) (w : World φ) (n : Nat)
    (reach : Option Nat) (refusal : String) :
    LimitedEnd n reach refusal
      (compileReading env levels next readings r { w with output := .unlimited })
      (compileReading env levels next readings r
        { w with output := ⟨.empty, some n, reach, refusal⟩ }) := by
  have hlockstep := lockstep_limited (φ := φ) env n reach refusal
  exact (conclusive_limited n reach refusal).runReading hlockstep.coupling
    (limited_dispatch env n reach refusal levels) (R := fun _ => True) (fun _ _ _ _ _ => trivial)
    (fun hS _ => by rw [hlockstep.files hS]) readings 1 none trivial
    ⟨rfl, rfl, Nat.zero_le n, rfl⟩

section Ends

variable {n kept : Nat} {refusal : String} {full cut : Verdict × World φ}
  (h : LimitedEnd n (some kept) refusal full cut) (hkept : kept ≤ n)
  (hends : full.1 ≠ .exhausted)
include h hkept hends

omit hends in
/-- If all that is written gets through, the limit makes no difference. -/
theorem LimitedEnd.eq_of_size_le (hsize : full.2.output.bytes.size ≤ kept) :
    cut.1 = full.1 ∧ cut.2 = { full.2 with output := cut.2.output } ∧
      cut.2.output.delivered = full.2.output.bytes := by
  have hfits {w v : World φ} (h : w.Fits n (some kept) refusal v)
      (hsize : w.output.bytes.size ≤ kept) :
      v = { w with output := v.output } ∧ v.output.delivered = w.output.bytes := by
    rw [h.eq]
    exact ⟨rfl, extract_eq_self_of_size_le hsize⟩
  cases h with
  | @complete w v h =>
    have hflush : v.output.flush = none := by
      rw [h.eq, Output.flush]
      exact if_pos hsize
    rw [World.complete, hflush]
    exact ⟨rfl, hfits h hsize⟩
  | broken h => exact ⟨rfl, hfits h hsize⟩
  | exhausted h => exact ⟨rfl, hfits h hsize⟩
  | refused h => exact absurd h.size (by omega)

/-- Otherwise the first bytes get through, and the limited compilation failed at some point of the
other one: behind the first part of its report and of its events. -/
theorem LimitedEnd.cut_of_lt_size (hreach : cut.2.output.reach = some kept)
    (hsize : kept < full.2.output.bytes.size) :
    cut.2.output.delivered = full.2.output.bytes.extract 0 kept ∧
    (∃ later, full.2.journal = later ++ cut.2.journal ∧
      full.2.files = replay later cut.2.files) ∧
    cut.2.report.toList <+: full.2.report.toList ∧
    ∃ failure, cut.1 = .failed failure ∧
      (failure = .write refusal ∨ full.1 = .failed failure ∧ cut.2.report = full.2.report) := by
  cases h with
  | @complete w v h =>
    have hflush : v.output.flush = some refusal := by
      rw [h.eq, Output.flush]
      exact if_neg (Nat.not_le.2 hsize)
    rw [World.complete, hflush, h.eq]
    exact ⟨rfl, ⟨[], rfl, rfl⟩, List.prefix_rfl, _, rfl, .inl rfl⟩
  | broken h =>
    rw [h.eq]
    exact ⟨rfl, ⟨[], rfl, rfl⟩, List.prefix_rfl, _, rfl, .inr ⟨rfl, rfl⟩⟩
  | exhausted h => exact absurd rfl hends
  | @refused full v h =>
    have hdelivered : v.output.delivered = full.2.output.bytes.extract 0 kept := by
      have hreach : v.output.reach = some kept := hreach
      rw [Output.delivered, hreach, h.bytes]
      dsimp only
      rw [ByteArray.extract_extract, Nat.zero_add, Nat.zero_add, Nat.min_eq_left hkept]
    exact ⟨hdelivered, h.journal, h.report, _, rfl, .inl rfl⟩

end Ends

end DeckScript
