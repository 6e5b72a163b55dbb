import DeckScript.Proofs.Accounting
import DeckScript.Proofs.Frames

/-!
# Faults and their places

The report of a run is the list of the faults that its acts have of themselves, in order, each with
the line and the file of its act. The numbers come with the records, and the file is the innermost
one that is being included when the act is carried out. Both are those of the frame in which the act
is performed, so a fault is always blamed on the line that raised it.

## Main definitions

* `Act.diagnostic?` — the fault of an act with its place
* `World.Blames` — between two states the report grows by the faults of these acts

## Main results

* `report_dispatch`, `report_run` — a report grows by the faults of the acts, in order
* `report_blames_lines` — every fault is blamed on a line that is carried out, in the script or file
  that it belongs to
-/

namespace DeckScript

variable {φ : Type} [FileStore φ]

/-- The fault of an act with its place, if the act has one. -/
def Act.diagnostic? (env : Environment) (a : Act φ) : Option Diagnostic :=
  (a.fault? env).map fun fault => ⟨a.line, a.world.includes.head?, fault⟩

/-! ## The report of a run -/

omit [FileStore φ] in
/-- An act without a fault of its own adds nothing to the report by itself. -/
theorem Act.Effect.report_eq {env : Environment} {a : Act φ} {v : World φ}
    (h : a.Effect env v) : v.report = a.world.report := by
  have hannounce (p : Call φ) : (announce env p.record p.world).report = p.world.report := by
    obtain ⟨events, h⟩ := p.world.onlyAsked_announce env p.record
    rw [h]
  cases h with
  | @assign p _ _ hdone =>
    rcases runAssignment_eq p.record (announce env p.record p.world) with
      ⟨fault, hfault⟩ | ⟨store, random, -, heq⟩
    · rw [hfault] at hdone
      cases hdone
    · rw [heq] at hdone
      cases hdone
      exact hannounce p
  | emit _ => exact (World.report_write _ _).trans (hannounce _)
  | chart _ => exact (World.report_write _ _).trans (hannounce _)
  | set _ => exact hannounce _
  | nest _ _ hasked =>
    obtain ⟨events, rfl⟩ := hasked
    rfl
  | loop hasked =>
    obtain ⟨events, rfl⟩ := hasked
    rfl
  | save => rfl

/-- What an act does to the report by itself. -/
theorem Act.Does.report_eq {env : Environment} {a : Act φ} {v : World φ} (h : a.Does env v) :
    v.report.toList = a.world.report.toList ++ (a.diagnostic? env).toList := by
  rw [Act.diagnostic?]
  cases h with
  | @fault f u hfault hasked =>
    obtain ⟨events, rfl⟩ := hasked
    simp [hfault, World.blame]
  | effect hnone heffect => simp [hnone, heffect.report_eq]

/-- Between the two states the report grows by the faults of the acts. -/
def World.Blames (env : Environment) (w : World φ) (as : List (Act φ)) (v : World φ) : Prop :=
  v.report.toList = w.report.toList ++ as.filterMap (Act.diagnostic? env)

theorem sound_blames (env : Environment) :
    (Accounting.ofLeads (World.Blames (φ := φ) env)).Sound env := by
  apply Accounting.sound_ofLeads
  case hnil =>
    intro w
    simp [World.Blames]
  case happend =>
    intro u v w as bs h h'
    rw [World.Blames] at h h' ⊢
    rw [h', h, List.filterMap_append, List.append_assoc]
  case hshift =>
    intro w includes
    simp [World.Blames]
  case hact =>
    intro a v h
    rw [World.Blames, h.report_eq, List.filterMap_cons, List.filterMap_nil]
    cases a.diagnostic? env <;> rfl

/-- A record adds to the report what its acts have for faults. -/
theorem report_dispatch (env : Environment) (n : Nat) (r : Record) (w : World φ) :
    (dispatch env n r w).world.report.toList =
      w.report.toList ++ (acts env n r w).filterMap (Act.diagnostic? env) :=
  (sound_blames env).leads_dispatch n r w

/-- The report of a run is what its acts have for faults. -/
theorem report_run (env : Environment) (levels : Nat) (source : Source) (w : World φ) :
    (run env levels source w).world.report.toList =
      (history env levels source w).filterMap (Act.diagnostic? env) :=
  ((sound_blames env).covers_run levels source w).leads

/-! ## The places of faults -/

section Places

variable {env : Environment} {source : Source} {w : World φ} {file : Option String} {f : Frame φ}
  {l : SourceLine}

theorem Frame.Performs.head?_includes {a : Act φ} (h : f.Performs env l a)
    (hf : Runs env source w file f) : a.world.includes.head? = file := by
  rw [h.precedes.includes, hf.head?_includes]

/-- A fault is blamed on the line and the file of the frame in which it is found. -/
theorem Frame.Performs.diagnostic?_eq {a : Act φ} (h : f.Performs env l a)
    (hf : Runs env source w file f) :
    a.diagnostic? env = (a.fault? env).map fun fault => ⟨l.number, file, fault⟩ := by
  rw [Act.diagnostic?, h.line_eq, h.head?_includes hf]

theorem Call.Asks.fault?_of_limit {p : Call φ} {name : String} (h : p.Asks env (.enter name))
    (hlimit : env.includeLimit ≤ p.world.includes.length) :
    (Act.call p).fault? env = some (.depth name env.includeLimit) := by
  rw [Act.fault?, h.attempt_eq, fulfil, runInclude, if_pos (by rwa [announce_includes])]
  rfl

theorem Call.Asks.fault?_of_unreadable {p : Call φ} {name reason : String}
    (h : p.Asks env (.enter name)) (hdepth : p.world.includes.length < env.includeLimit)
    (hread : FileStore.read p.world.files name = .error reason) :
    (Act.call p).fault? env = some (.file name reason) := by
  rw [Act.fault?, h.attempt_eq]
  simp only [fulfil, runInclude, announce_includes, if_neg (Nat.not_le.2 hdepth), World.open?,
    announce_files, hread, Attempt.fault?]

/-- Every fault of a report was found in an act that was performed in a frame of its file. -/
theorem exists_performs_of_mem_report (hstandard : env.vocabulary = .standard) {levels : Nat}
    {d : Diagnostic} (hd : d ∈ (run env levels source w).world.report.toList) :
    ∃ f l a, Runs env source w d.file f ∧ f.Performs env l a ∧ a.diagnostic? env = some d ∧
      d.line = l.number := by
  rw [report_run, List.mem_filterMap] at hd
  obtain ⟨a, ha, hdiagnostic⟩ := hd
  obtain ⟨file, f, l, hf, hperforms⟩ := exists_performs_of_mem_history hstandard ha
  have hplace := hperforms.diagnostic?_eq hf
  rw [hdiagnostic, eq_comm, Option.map_eq_some_iff] at hplace
  obtain ⟨fault, -, rfl⟩ := hplace
  exact ⟨f, l, a, hf, hperforms, hdiagnostic, rfl⟩

/-- The report of a compilation with the standard vocabulary lists the faults of its acts in order.
Each of them was found in an act that was performed in a frame of its file, on the line with its
number. That line is one of the script, or of the file as it was read when it was included, and it
is carried out there: it is no comment and has tokens, it is no row of data and does not end a loop.
A file that cannot be included is blamed on the line that includes it. -/
theorem report_blames_lines (includeLimit : Nat) (traced : Bool)
    (runner : Runner) (levels : Nat) (source : Source)
    (w : World φ) :
    let env : Environment := ⟨.standard, includeLimit, traced, runner⟩
    let report := (compile env levels source w).2.report.toList
    report = (history env levels source w).filterMap (Act.diagnostic? env) ∧
    (∀ d ∈ report, ∃ f l a, Runs env source w d.file f ∧ f.Performs env l a ∧
      a.diagnostic? env = some d ∧ d.line = l.number ∧
      1 ≤ d.line ∧ d.line ≤ f.source.lines.length ∧ f.source.lines[d.line - 1]? = some l ∧
      l.ActsIn (f.source.openAt d.line)) ∧
    (∀ file f l a fault, Runs env source w file f → f.Performs env l a →
      a.fault? env = some fault → a.diagnostic? env = some ⟨l.number, file, fault⟩) ∧
    ∀ file f l p name, Runs env source w file f → f.Performs env l (.call p) →
      p.Asks env (.enter name) →
      (includeLimit ≤ p.world.includes.length →
        (Act.call p).diagnostic? env = some ⟨l.number, file, .depth name includeLimit⟩) ∧
      (p.world.includes.length < includeLimit →
        ∀ reason, FileStore.read p.world.files name = .error reason →
          (Act.call p).diagnostic? env = some ⟨l.number, file, .file name reason⟩) := by
  intro env report
  refine ⟨report_run env levels source w, ?_, ?_, ?_⟩
  · intro d hd
    obtain ⟨f, l, a, hf, hperforms, hdiagnostic, hline⟩ := exists_performs_of_mem_report rfl hd
    refine ⟨f, l, a, hf, hperforms, hdiagnostic, hline, ?_⟩
    rw [hline]
    exact hperforms.exists_actsIn
  · intro file f l a fault hf hperforms hfault
    rw [hperforms.diagnostic?_eq hf, hfault]
    rfl
  · intro file f l p name hf hperforms hasks
    refine ⟨fun hlimit => ?_, fun hdepth reason hread => ?_⟩
    · rw [hperforms.diagnostic?_eq hf, hasks.fault?_of_limit hlimit]
      rfl
    · rw [hperforms.diagnostic?_eq hf, hasks.fault?_of_unreadable hdepth hread]
      rfl

end Places

end DeckScript
