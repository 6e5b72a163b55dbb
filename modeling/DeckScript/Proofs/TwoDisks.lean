import DeckScript.Proofs.DiskReader
import DeckScript.Proofs.Levels
import DeckScript.Proofs.MarkupLine
import DeckScript.Proofs.RandomDraws

/-!
# A run on two disks

A run that keeps off one place of the disk does the same whatever stands there, and leaves it alone,
as long as the programs that it runs do not look there. In the same way a run that draws no random
number does the same with any seed. So two runs that begin alike but for such a place, and but for
the seed if it does not matter, stay together to their ends. They are compared from the side of the
first one: as long as that has named no file at the place and has drawn nothing, the second one
mirrors it.

## Main definitions

* `Event.Avoids` — an event that does not name a file at a place
* `World.Independent` — a state that has come about without the place and without the seed
* `World.Mirrors` — two states that differ in the place and the seed at most

## Main results

* `coupling_mirrored` — as long as the first run is independent, the second one stays in step
* `compileReading_mirrors` — a compilation that stays independent is the same on the other disk
-/

namespace DeckScript

/-! ## Independence -/

/-- The event does not name a file whose path leads through the place. -/
def Event.Avoids (k? : Option String) : Event → Prop
  | .opened path => Disk.Avoids path k?
  | .saved path _ => Disk.Avoids path k?
  | .traced _ _ => True
  | .called _ => True

instance (k? : Option String) : DecidablePred (Event.Avoids k?) := fun e => by
  cases e <;> (rw [Event.Avoids]; infer_instance)

/-- So far no file at the place has been named, no random number has been drawn unless the stream is
seeded, and no program has been run unless programs do not look at the place. -/
structure World.Independent {φ : Type} (runner : Runner) (k? : Option String) (seeded : Prop)
    (w : World φ) : Prop where
  journal : ∀ e ∈ w.journal, e.Avoids k?
  random : seeded ∨ w.random.position = 0
  programs : runner.Blind (Disk.AgreeOff k?) ∨ w.calls = []

/-- What has been independent up to a state was so before. -/
theorem World.Independent.of_precedes {φ : Type} [FileStore φ] {runner : Runner}
    {k? : Option String} {seeded : Prop} {w v : World φ} (h : v.Independent runner k? seeded)
    (hwv : w.Precedes v) : w.Independent runner k? seeded where
  journal e he := by
    obtain ⟨events, hevents, -⟩ := hwv.journal
    exact h.journal e (hevents ▸ List.mem_append_right events he)
  random := h.random.imp_right fun hzero => by
    have hle := hwv.random
    omega
  programs := h.programs.imp_right fun hnone => by
    obtain ⟨events, hevents, -⟩ := hwv.journal
    rw [calls, hevents, List.filterMap_append, List.append_eq_nil_iff] at hnone
    exact hnone.2

/-- Files that are replaced off the place leave disks alike off it. -/
theorem Disk.AgreeOff.replay {k? : Option String} {d d' : Disk} (h : d.AgreeOff k? d')
    {events : List Event} (hevents : ∀ e ∈ events, e.Avoids k?) :
    (DeckScript.replay events d).AgreeOff k? (DeckScript.replay events d') := by
  induction events with
  | nil => exact h
  | cons e rest ih =>
    have hrest := ih fun f hf => hevents f (List.mem_cons_of_mem _ hf)
    have he := hevents e List.mem_cons_self
    cases e with
    | traced line tokens | opened name | called command => exact hrest
    | saved name contents =>
      simp only [replay_cons, Event.redo]
      rcases hrest.write he contents with ⟨reason, hd, hd'⟩ | ⟨e, e', hd, hd', hoff, -⟩
      · rw [hd, hd']
        exact hrest
      · rw [hd, hd']
        exact hoff

/-- They leave alone what stands there. -/
theorem Disk.agreeAt_replay {k? : Option String} {events : List Event}
    (h : ∀ name contents, .saved name contents ∈ events → Disk.Avoids name k?) (d : Disk) :
    d.AgreeAt k? (DeckScript.replay events d) := by
  induction events with
  | nil => exact fun _ _ => rfl
  | cons e rest ih =>
    have hrest := ih fun name contents hname => h name contents (List.mem_cons_of_mem _ hname)
    cases e with
    | traced line tokens | opened name | called command => exact hrest
    | saved name contents =>
      have hwrite := (Disk.AgreeOff.refl k? (DeckScript.replay rest d)).write
        (h name contents List.mem_cons_self) contents
      simp only [replay_cons, Event.redo]
      rcases hwrite with ⟨reason, hd, -⟩ | ⟨-, e', -, hd, -, hat⟩
      · rw [hd]
        exact hrest
      · rw [hd]
        exact fun k hk => (hrest k hk).trans (hat k hk)

/-- An assignment draws a number, or it does not look at the random stream. -/
theorem exists_assign_eq {r : Record} {store : Store} (hassignment : r.isAssignment)
    (h : r.drawBounds? store = none) :
    ∃ result : Except Fault Store, ∀ random,
      assign store random r = result.map fun store => (store, random) := by
  suffices hvalue : ∃ value : Except Fault String, ∀ random,
      assignedValue store random r = value.map fun value => (value, random) by
    obtain ⟨value, hvalue⟩ := hvalue
    refine ⟨value.map (store.insert r.keyword), fun random => ?_⟩
    rw [assign, hvalue]
    cases value <;> rfl
  by_cases hdraw : r.length = 5 ∧ r.arg 2 = "random"
  · obtain ⟨hlength, hword⟩ := hdraw
    rw [Record.drawBounds?, if_pos ⟨hassignment, hlength, hword⟩] at h
    simp only [assignedValue, hlength, if_pos hword, randomValue]
    cases hlow : operand store (r.arg 3) with
    | error fault => exact ⟨.error fault, fun _ => rfl⟩
    | ok low =>
      cases hhigh : operand store (r.arg 4) with
      | error fault => exact ⟨.error fault, fun _ => rfl⟩
      | ok high =>
        rw [hlow, hhigh] at h
        cases h
  · -- Any stream gives the value, since none of these assignments looks at it.
    refine ⟨(assignedValue store (.ofSeed 0) r).map Prod.fst, fun random => ?_⟩
    simp only [assignedValue]
    split
    · rfl
    · rename_i hlength
      have hword : r.arg 2 ≠ "random" := fun hword => hdraw ⟨hlength, hword⟩
      rw [if_neg hword, if_neg hword]
      cases operationValue store r <;> rfl
    · cases polarValue store r <;> rfl
    · cases rescaledValue store r <;> rfl
    · rfl

/-! ## States that mirror each other -/

/-- The second state has the same as the first one, but for what stands at the place, where it holds
what the disk `d₀` held, and but for the random stream unless that is seeded. -/
structure World.Mirrors (k? : Option String) (seeded : Prop) (d₀ : Disk) (w v : World Disk) :
    Prop where
  files : w.files.AgreeOff k? v.files
  held : d₀.AgreeAt k? v.files
  random : seeded → w.random = v.random
  eq : v = { w with files := v.files, random := v.random }

/-- If the first run ends, and independent of the place and of the seed, then the second one ends
in the same way. -/
def Mirrored (runner : Runner) (k? : Option String) (seeded : Prop) (d₀ : Disk)
    (o p : Outcome Disk) : Prop :=
  o.isExhausted = false → o.world.Independent runner k? seeded →
    Together (World.Mirrors k? seeded d₀) o p

section Mirrors

variable {runner : Runner} {k? : Option String} {seeded : Prop} {d₀ : Disk} {w v : World Disk}

/-- A change that looks neither at the files nor at the random stream keeps states alike. -/
theorem World.Mirrors.map (h : w.Mirrors k? seeded d₀ v) (f : World Disk → World Disk)
    (hf : ∀ (u : World Disk) files random,
      f { u with files, random } = { f u with files, random })
    (hfiles : ∀ u : World Disk, (f u).files = u.files)
    (hrandom : ∀ u : World Disk, (f u).random = u.random) :
    (f w).Mirrors k? seeded d₀ (f v) where
  files := by rw [hfiles, hfiles]; exact h.files
  held := by rw [hfiles]; exact h.held
  random hseeded := by rw [hrandom, hrandom, h.random hseeded]
  eq := by
    rw [hfiles, hrandom, ← hf]
    exact congrArg f h.eq

theorem World.Mirrors.output (h : w.Mirrors k? seeded d₀ v) : v.output = w.output := by
  rw [h.eq]

theorem World.Mirrors.report (h : w.Mirrors k? seeded d₀ v) : v.report = w.report := by
  rw [h.eq]

theorem World.Mirrors.write (h : w.Mirrors k? seeded d₀ v) (data : ByteArray) :
    Together (World.Mirrors k? seeded d₀) (w.write data) (v.write data) := by
  refine together_write h.output.symm (fun output => ?_) data
  exact h.map (fun u => { u with output }) (fun _ _ _ => rfl) (fun _ => rfl) fun _ => rfl

theorem Mirrored.of_together {o p : Outcome Disk}
    (h : Together (World.Mirrors k? seeded d₀) o p) : Mirrored runner k? seeded d₀ o p :=
  fun _ _ => h

theorem Mirrored.leave {o p : Outcome Disk} (hop : Mirrored runner k? seeded d₀ o p) :
    Mirrored runner k? seeded d₀ (o.map World.leave) (p.map World.leave) := by
  intro hends hindependent
  rw [Outcome.isExhausted_map] at hends
  rw [Outcome.world_map] at hindependent
  have hleave {w v : World Disk} (h : w.Mirrors k? seeded d₀ v) :
      w.leave.Mirrors k? seeded d₀ v.leave :=
    h.map World.leave (fun _ _ _ => rfl) (fun _ => rfl) fun _ => rfl
  cases hop hends ⟨hindependent.journal, hindependent.random, hindependent.programs⟩ with
  | finished h => exact .finished (hleave h)
  | refused h => exact .refused (hleave h)

theorem Mirrored.andThen {o p : Outcome Disk} {f g : Step Disk} (hf : Advances f)
    (hop : Mirrored runner k? seeded d₀ o p)
    (hfg : ∀ w v, w.Mirrors k? seeded d₀ v → Mirrored runner k? seeded d₀ (f w) (g v)) :
    Mirrored runner k? seeded d₀ (o.andThen f) (p.andThen g) := by
  intro hends hindependent
  have hfirst : o.isExhausted = false := by
    cases ho : o.isExhausted with
    | false => rfl
    | true => rw [Outcome.isExhausted_andThen ho] at hends; cases hends
  have hbefore := hindependent.of_precedes (Outcome.precedes_andThen (.refl o.world) hf)
  cases hop hfirst hbefore with
  | finished h => exact hfg _ _ h hends hindependent
  | refused h => exact .refused h

/-! ## Files and random numbers -/

theorem World.Mirrors.assign (h : w.Mirrors k? seeded d₀ v) (r : Record) :
    (runAssignment r w).InStep Eq (Mirrored runner k? seeded d₀) (runAssignment r v) := by
  have hstore : v.store = w.store := by rw [h.eq]
  have hset (store : Store) :
      ({ w with store } : World Disk).Mirrors k? seeded d₀ { v with store } :=
    h.map (fun w => { w with store }) (fun _ _ _ => rfl) (fun _ => rfl) fun _ => rfl
  have hblame (line : Nat) (fault : Fault) :
      (w.blame line fault).Mirrors k? seeded d₀ (v.blame line fault) :=
    h.map (fun w => w.blame line fault) (fun _ _ _ => rfl) (fun _ => rfl) fun _ => rfl
  rintro line _ rfl
  rw [runAssignment, runAssignment, hstore]
  by_cases hassignment : r.isAssignment
  · rw [if_pos hassignment, if_pos hassignment]
    cases hbounds : r.drawBounds? w.store with
    | none =>
      obtain ⟨result, hresult⟩ := exists_assign_eq hassignment hbounds
      rw [hresult, hresult]
      cases result with
      | error fault => exact .of_together (.finished (hblame line fault))
      | ok store => exact .of_together (.finished (hset store))
    | some bounds =>
      rw [(assign_of_drawBounds? hbounds w.random).2, (assign_of_drawBounds? hbounds v.random).2]
      -- Both streams are the same, or the draw puts an end to the independence.
      intro _ hindependent
      rcases hindependent.random with hseeded | hzero
      · rw [← h.random hseeded]
        exact .finished ⟨h.files, h.held, fun _ => rfl, by rw [h.eq]⟩
      · exact absurd hzero (Nat.succ_ne_zero _)
  · rw [if_neg hassignment, if_neg hassignment]
    by_cases hcompound : r.isCompound
    · rw [if_pos hcompound, if_pos hcompound]
      cases assignCompound w.store r with
      | error fault => exact .of_together (.finished (hblame line fault))
      | ok store => exact .of_together (.finished (hset store))
    · rw [if_neg hcompound, if_neg hcompound]
      exact .of_together (.finished h)

theorem World.Mirrors.read (h : w.Mirrors k? seeded d₀ v) (name : String) :
    FileStore.read w.files name = FileStore.read v.files name ∨
      ∀ o p, (w.note (.opened name)).Precedes o.world → Mirrored runner k? seeded d₀ o p := by
  by_cases hname : Disk.Avoids name k?
  · exact .inl (h.files.read hname)
  · refine .inr fun o p hprecedes _ hindependent => ?_
    have hbefore := hindependent.of_precedes hprecedes
    exact absurd (hbefore.journal _ List.mem_cons_self) hname

/-- What a program answers is the same on both disks, or the call puts an end to the
independence. -/
theorem World.Mirrors.call (h : w.Mirrors k? seeded d₀ v) (command : List String) :
    (w.call? runner command).2 = (v.call? runner command).2 ∨
      ∀ o p, (w.note (.called command)).Precedes o.world → Mirrored runner k? seeded d₀ o p := by
  by_cases hblind : runner.Blind (Disk.AgreeOff k?)
  · have hcalls : v.calls = w.calls := by
      rw [h.eq]
      rfl
    rw [World.call?, World.call?, hcalls]
    exact .inl (hblind _ _ h.files w.calls command)
  · refine .inr fun o p hprecedes _ hindependent => ?_
    have hbefore := hindependent.of_precedes hprecedes
    have hnone := hbefore.programs.resolve_left hblind
    rw [World.calls_note_called] at hnone
    cases hnone

theorem World.Mirrors.save (h : w.Mirrors k? seeded d₀ v) (name contents : String) :
    (w.replaceFile name contents).InStep Eq (Mirrored runner k? seeded d₀)
      (v.replaceFile name contents) := by
  have hnote : (w.note (.saved name contents)).Mirrors k? seeded d₀
      (v.note (.saved name contents)) :=
    h.map (fun w => w.note _) (fun _ _ _ => rfl) (fun _ => rfl) fun _ => rfl
  rintro line _ rfl
  by_cases hname : Disk.Avoids name k?
  · rw [World.replaceFile, World.replaceFile, World.save?, World.save?]
    rcases h.files.write hname contents with ⟨reason, hw, hv⟩ | ⟨e, e', hw, hv, hoff, hat⟩
    · rw [hw, hv]
      exact .of_together (.finished (hnote.map (fun w => w.blame line _) (fun _ _ _ => rfl)
        (fun _ => rfl) fun _ => rfl))
    · rw [hw, hv]
      refine .of_together (.finished ⟨hoff, fun k hk => (h.held k hk).trans (hat k hk), ?_, ?_⟩)
      · exact h.random
      · rw [h.eq]
        rfl
  · -- The event is in the journal whether the files refuse the replacement or not.
    intro _ hindependent
    refine absurd (hindependent.journal (.saved name contents) ?_) hname
    rw [World.replaceFile, World.save?]
    cases FileStore.write w.files name contents <;> exact List.mem_cons_self

end Mirrors

/-- As long as the first run is independent of the place and of the seed, the second one is in step
with it. -/
theorem coupling_mirrored (env : Environment) (k? : Option String) (seeded : Prop) (d₀ : Disk) :
    Coupling env Eq (World.Mirrors k? seeded d₀) (Mirrored env.runner k? seeded d₀) where
  number _ := rfl
  ask _ _ _ hrs _ := by rw [hrs.eq]
  store h := by rw [h.eq]
  note h e := h.map (fun w => w.note e) (fun _ _ _ => rfl) (fun _ => rfl) fun _ => rfl
  trace h hN tokens := hN ▸
    h.map (fun w => w.note (.traced _ tokens)) (fun _ _ _ => rfl) (fun _ => rfl) fun _ => rfl
  blame h hN fault := hN ▸
    h.map (fun w => w.blame _ fault) (fun _ _ _ => rfl) (fun _ => rfl) fun _ => rfl
  enter h name := h.map (fun w => w.enter name) (fun _ _ _ => rfl) (fun _ => rfl) fun _ => rfl
  leave h _ _ := h.leave
  shallow h := by rw [h.eq]; exact id
  deep h := by rw [h.eq]; exact .inl
  finished h := .of_together (.finished h)
  write h data := .of_together (h.write data)
  andThen hf _ h hfg := h.andThen hf hfg
  set h store := h.map (fun w => { w with store }) (fun _ _ _ => rfl) (fun _ => rfl) fun _ => rfl
  assign h r := h.assign r
  read h name := h.read name
  save h name contents := h.save name contents
  call h command := h.call command

/-! ## Compilations -/

section Compilations

variable {k? : Option String} {seeded : Prop} {d₀ : Disk} {env : Environment} {levels : Nat}

variable (env levels) in
theorem mirrored_dispatch {r s : Record} (hrs : r.Alike Eq s) :
    InStep (World.Mirrors k? seeded d₀) (Mirrored env.runner k? seeded d₀)
      (dispatch env levels r) (dispatch env levels s) := by
  induction levels generalizing r s with
  | zero =>
    refine ⟨advances_dispatch env 0 r, advances_dispatch env 0 s, fun _ hends => ?_⟩
    cases hends
  | succ levels ih => exact (coupling_mirrored env k? seeded d₀).dispatch_succ ih hrs

/-- If the first compilation ends, and independent of the place and of the seed, then the second one
ends in the same way. -/
def MirroredEnd (runner : Runner) (k? : Option String) (seeded : Prop) (d₀ : Disk)
    (a b : Verdict × World Disk) : Prop :=
  a.1 ≠ .exhausted → a.2.Independent runner k? seeded →
    b.1 = a.1 ∧ a.2.Mirrors k? seeded d₀ b.2

theorem conclusive_mirrored (runner : Runner) (k? : Option String) (seeded : Prop) (d₀ : Disk) :
    Conclusive (World.Mirrors k? seeded d₀) (Mirrored runner k? seeded d₀)
      (MirroredEnd runner k? seeded d₀) where
  complete {w v} h _ _ := by
    rw [World.complete_world, World.complete_world, World.complete, World.complete, h.output]
    refine ⟨?_, h⟩
    cases w.output.flush <;> rfl
  broken h _ _ _ := ⟨rfl, h⟩
  exhausted _ hends := absurd rfl hends
  conclude {o p f g} hf hop hfg hends hindependent := by
    have hfirst : o.isExhausted = false := by
      cases o with
      | exhausted w => exact absurd rfl hends
      | finished w | refused w => rfl
    have hbefore := hindependent.of_precedes (Outcome.precedes_conclude (.refl o.world) hf)
    cases hop hfirst hbefore with
    | finished h => exact hfg _ _ h hends hindependent
    | refused h => exact ⟨by rw [Outcome.conclude, Outcome.conclude, h.output], h⟩

/-- A compilation that reads its script and ends independent of the place and of the seed ends in
the same way on the other disk and with the other seed, if the script does not stand at the
place. -/
theorem compileReading_mirrors {r : Reader} (hr : r.origin.KeepsOff k?) (readings : Nat)
    {w v : World Disk} (h : w.Mirrors k? seeded d₀ v) :
    MirroredEnd env.runner k? seeded d₀ (compileReading env levels Reader.next readings r w)
      (compileReading env levels Reader.next readings r v) := by
  have hrenew : w.renew.Mirrors k? seeded d₀ v.renew :=
    h.map World.renew (fun _ _ _ => rfl) (fun _ => rfl) fun _ => rfl
  have hrest (d : Disk) (r rest : Reader) (hr : r.origin.KeepsOff k?)
      (hread : (r.next d).rest? = some rest) : rest.origin.KeepsOff k? := by
    rwa [Reader.origin_of_rest hread]
  exact (conclusive_mirrored env.runner k? seeded d₀).runReading
    (coupling_mirrored env k? seeded d₀) (mirrored_dispatch env levels) hrest
    (fun hS hr => Reader.next_congr (Origin.bytes_congr hr hS.files)) readings 1 none hr hrenew

end Compilations

end DeckScript
