import DeckScript.Proofs.Accounting

/-!
# How many random numbers are drawn

A number is drawn by one kind of record only: an assignment of the form `id = random min max` whose
bounds are both numbers. So the random stream stands as far behind the start of its sequence as
there have been such assignments, whatever else was done in between, and through all compilations
that go on with one stream.

## Main definitions

* `RandomStream.advance` — the stream after so many draws
* `Record.drawBounds?`, `Act.drawBounds?` — the bounds of a record that draws a number
* `drawn`, `World.Draws` — how many of some acts draw a number, and that the stream goes on by those
* `Compilation`, `session`, `sessionActs` — compilations one after the other, and their acts

## Main results

* `Call.dispatch_of_drawBounds?` — what an assignment that draws a number does
* `random_dispatch` — a record draws as many numbers as its acts do
* `random_session` — the random stream at every moment of a sequence of compilations
-/

namespace DeckScript

/-! ## Streams -/

namespace RandomStream

/-- The stream after `n` draws. -/
def advance (s : RandomStream) (n : Nat) : RandomStream := { s with position := s.position + n }

@[simp] theorem advance_zero (s : RandomStream) : s.advance 0 = s := rfl

/-- One draw more. -/
theorem advance_succ (s : RandomStream) (n : Nat) : s.advance (n + 1) = (s.advance n).draw.2 := rfl

theorem advance_advance (s : RandomStream) (m n : Nat) :
    (s.advance m).advance n = s.advance (m + n) := by
  simp only [advance, Nat.add_assoc]

end RandomStream

/-! ## Records that draw a number -/

/-- The bounds of a record that assigns a random number: it has five tokens, the third of which is
`random`, and the last two are numbers or variables that hold numbers. -/
def Record.drawBounds? (r : Record) (store : Store) : Option (Float × Float) :=
  if r.isAssignment ∧ r.length = 5 ∧ r.arg 2 = "random" then
    match operand store (r.arg 3), operand store (r.arg 4) with
    | .ok low, .ok high => some (low, high)
    | _, _ => none
  else none

/-- An assignment draws one number, if it draws any, and puts it between its bounds. -/
theorem assign_of_drawBounds? {r : Record} {store : Store} {low high : Float}
    (h : r.drawBounds? store = some (low, high)) (random : RandomStream) :
    r.isAssignment ∧ assign store random r = .ok
      (store.insert r.keyword
        (Number.text (low + (high - low) * (random.draw.1 - 0) / (1 - 0))), random.draw.2) := by
  rw [Record.drawBounds?] at h
  split at h
  · rename_i hform
    obtain ⟨hassignment, hlength, hword⟩ := hform
    refine ⟨hassignment, ?_⟩
    cases hlow : operand store (r.arg 3) with
    | error fault =>
      rw [hlow] at h
      cases h
    | ok x =>
      cases hhigh : operand store (r.arg 4) with
      | error fault =>
        rw [hlow, hhigh] at h
        cases h
      | ok y =>
        rw [hlow, hhigh] at h
        cases h
        simp only [assign, assignedValue, hlength, if_pos hword, randomValue, hlow, hhigh]
        rfl
  · cases h

/-- An assignment without bounds to draw between draws nothing. -/
theorem random_assign {r : Record} {store : Store} {random : RandomStream}
    {after : Store × RandomStream} (hassignment : r.isAssignment)
    (h : r.drawBounds? store = none) (hassign : assign store random r = .ok after) :
    after.2 = random := by
  obtain ⟨p, hp, rfl⟩ := exists_of_map_eq_ok hassign
  rw [assignedValue] at hp
  split at hp
  · cases hp
    rfl
  · rename_i hlength
    split at hp
    · rename_i hword
      rw [Record.drawBounds?, if_pos ⟨hassignment, hlength, hword⟩] at h
      obtain ⟨low, hlow, hp⟩ := exists_of_bind_eq_ok hp
      obtain ⟨high, hhigh, hp⟩ := exists_of_bind_eq_ok hp
      rw [hlow, hhigh] at h
      cases h
    · obtain ⟨value, -, rfl⟩ := exists_of_map_eq_ok hp
      rfl
  · obtain ⟨value, -, rfl⟩ := exists_of_map_eq_ok hp
    rfl
  · obtain ⟨value, -, rfl⟩ := exists_of_map_eq_ok hp
    rfl
  · cases hp

variable {φ : Type}

theorem random_runAssignment {r : Record} {w v : World φ} (h : r.drawBounds? w.store = none)
    (hdone : runAssignment r w = .done v) : v.random = w.random := by
  rw [runAssignment] at hdone
  split at hdone
  · rename_i hassignment
    cases hassign : assign w.store w.random r with
    | error fault =>
      rw [hassign] at hdone
      cases hdone
    | ok after =>
      rw [hassign] at hdone
      cases hdone
      exact random_assign hassignment h hassign
  · split at hdone
    · cases hassign : assignCompound w.store r with
      | error fault =>
        rw [hassign] at hdone
        cases hdone
      | ok store =>
        rw [hassign] at hdone
        cases hdone
        rfl
    · cases hdone
      rfl

/-! ## Acts that draw a number -/

variable {env : Environment}

/-- The bounds between which an act draws a number, if it does. -/
def Act.drawBounds? (env : Environment) : Act φ → Option (Float × Float)
  | .call p =>
    match env.vocabulary.get? p.record.keyword with
    | none => p.record.drawBounds? p.world.store
    | some _ => none
  | .loop _ _ _ => none
  | .data _ _ _ => none

/-- How many of the acts draw a number. -/
def drawn (env : Environment) (as : List (Act φ)) : Nat :=
  as.countP fun a => (a.drawBounds? env).isSome

theorem World.random_write (w : World φ) (data : ByteArray) :
    (w.write data).world.random = w.random := by
  rw [World.write]
  split <;> rfl

variable [FileStore φ]

omit [FileStore φ] in
theorem Call.random_announce (env : Environment) (r : Record) (w : World φ) :
    (announce env r w).random = w.random := by
  rw [announce]
  split <;> rfl

/-- An assignment that draws a number puts it under its first token, and changes nothing else but
the random stream. -/
theorem Call.attempt_of_drawBounds? {p : Call φ} {low high : Float}
    (h : (Act.call p).drawBounds? env = some (low, high)) (exec : Record → Step φ) :
    (Act.call p).attempt env exec = .done { announce env p.record p.world with
      store := p.world.store.insert p.record.keyword
        (Number.text (low + (high - low) * (p.world.random.draw.1 - 0) / (1 - 0)))
      random := p.world.random.draw.2 } := by
  rw [Act.drawBounds?] at h
  cases hd : env.vocabulary.get? p.record.keyword with
  | some d =>
    rw [hd] at h
    cases h
  | none =>
    rw [hd] at h
    obtain ⟨hassignment, hassign⟩ := assign_of_drawBounds? h p.world.random
    rw [Act.attempt, execute, hd]
    simp only [runAssignment, if_pos hassignment, announce_store, random_announce, hassign]

theorem Call.dispatch_of_drawBounds? {p : Call φ} {low high : Float}
    (h : (Act.call p).drawBounds? env = some (low, high)) (n : Nat) :
    dispatch env (n + 1) p.record p.world = .finished { announce env p.record p.world with
      store := p.world.store.insert p.record.keyword
        (Number.text (low + (high - low) * (p.world.random.draw.1 - 0) / (1 - 0)))
      random := p.world.random.draw.2 } := by
  have hattempt := attempt_of_drawBounds? h (dispatch env n)
  rw [Act.attempt] at hattempt
  rw [DeckScript.dispatch_succ, hattempt, Attempt.settle_outcome]

omit [FileStore φ] in
/-- A call that asks for something draws nothing itself. -/
theorem Call.Asks.drawBounds?_eq {p : Call φ} {request : Request} (h : p.Asks env request) :
    (Act.call p).drawBounds? env = none := by
  obtain ⟨d, hd, -⟩ := h
  rw [Act.drawBounds?, hd]

omit [FileStore φ] in
/-- An act without bounds to draw between draws nothing itself. -/
theorem Act.Effect.random_of_none {a : Act φ} {v : World φ} (h : a.Effect env v)
    (hnone : a.drawBounds? env = none) : v.random = a.world.random := by
  cases h with
  | @assign p _ hkeyword hdone =>
    rw [Act.drawBounds?, hkeyword] at hnone
    rw [← Call.announce_store env p.record p.world] at hnone
    exact (random_runAssignment hnone hdone).trans (Call.random_announce env p.record p.world)
  | emit _ => exact (World.random_write _ _).trans (Call.random_announce env _ _)
  | chart _ => exact (World.random_write _ _).trans (Call.random_announce env _ _)
  | set _ => exact Call.random_announce env _ _
  | nest _ _ hasked =>
    obtain ⟨events, rfl⟩ := hasked
    rfl
  | loop hasked =>
    obtain ⟨events, rfl⟩ := hasked
    rfl
  | save => rfl

/-- An act with bounds to draw between draws one number. -/
theorem Act.Effect.random_of_some {a : Act φ} {v : World φ} (h : a.Effect env v)
    {bounds : Float × Float} (hsome : a.drawBounds? env = some bounds) :
    v.random = a.world.random.draw.2 := by
  cases h with
  | @assign p _ hkeyword hdone =>
    have hattempt := Call.attempt_of_drawBounds? hsome fun _ w => .finished w
    rw [Act.attempt, execute, hkeyword] at hattempt
    dsimp only at hattempt
    rw [hdone] at hattempt
    cases hattempt
    rfl
  | emit hasks | chart hasks | set hasks | nest hasks _ _ =>
    rw [hasks.drawBounds?_eq] at hsome
    cases hsome
  | loop _ => cases hsome
  | save => cases hsome

/-- An act with a fault draws nothing: the bounds are looked at before the draw. -/
theorem Act.drawBounds?_of_fault {a : Act φ} {f : Fault} (h : a.fault? env = some f) :
    a.drawBounds? env = none := by
  cases hbounds : a.drawBounds? env with
  | none => rfl
  | some bounds =>
    cases a with
    | call p =>
      have hattempt := Call.attempt_of_drawBounds? hbounds fun _ w => .finished w
      rw [fault?, hattempt] at h
      cases h
    | loop _ _ _ => cases hbounds
    | data _ _ _ => cases hbounds

/-! ## The draws of a run -/

omit [FileStore φ] in
/-- Between the two states the random stream goes on by the draws of the acts. -/
def World.Draws (env : Environment) (w : World φ) (as : List (Act φ)) (v : World φ) : Prop :=
  v.random = w.random.advance (drawn env as)

theorem sound_draws (env : Environment) :
    (Accounting.ofLeads (World.Draws (φ := φ) env)).Sound env := by
  apply Accounting.sound_ofLeads
  case hnil =>
    intro w
    rfl
  case happend =>
    intro u v w as bs h h'
    rw [World.Draws] at h h' ⊢
    rw [h', h, RandomStream.advance_advance, drawn, drawn, drawn, List.countP_append]
  case hshift =>
    intro w includes
    rfl
  case hact =>
    intro a v h
    rw [World.Draws, drawn, List.countP_singleton]
    cases h with
    | @fault f u hfault hasked =>
      obtain ⟨events, rfl⟩ := hasked
      rw [Act.drawBounds?_of_fault hfault]
      rfl
    | effect _ heffect =>
      cases hbounds : a.drawBounds? env with
      | none => exact heffect.random_of_none hbounds
      | some bounds => exact heffect.random_of_some hbounds

/-- A record draws as many numbers as its acts do. -/
theorem random_dispatch (env : Environment) (n : Nat) (r : Record) (w : World φ) :
    (dispatch env n r w).world.random = w.random.advance (drawn env (acts env n r w)) :=
  (sound_draws env).leads_dispatch n r w

/-! ## Compilations one after the other -/

omit [FileStore φ] in
/-- A compilation: its script, and what becomes of the state in front of it. -/
structure Compilation (φ : Type) where
  source : Source
  levels : Nat
  prepare : World φ → World φ

omit [FileStore φ] in
/-- The state in which a compilation begins. Its caller may set variables and files and give another
output, but the random stream goes on. -/
def Compilation.start (c : Compilation φ) (w : World φ) : World φ :=
  { c.prepare w with random := w.random }

/-- The state after compilations, each of which goes on where the one before it ended. -/
def session (env : Environment) : List (Compilation φ) → World φ → World φ
  | [], w => w
  | c :: rest, w => session env rest (compile env c.levels c.source (c.start w)).2

/-- The acts of compilations, each of which goes on where the one before it ended. -/
def sessionActs (env : Environment) : List (Compilation φ) → World φ → List (Act φ)
  | [], _ => []
  | c :: rest, w =>
    history env c.levels c.source (c.start w) ++
      sessionActs env rest (compile env c.levels c.source (c.start w)).2

/-- A sequence of compilations leaves the random stream as far on as its acts have drawn. -/
theorem covers_session (env : Environment) (calls : List (Compilation φ)) (w : World φ) :
    (Accounting.ofLeads (World.Draws env)).Covers w (sessionActs env calls w)
      (session env calls w) := by
  induction calls generalizing w with
  | nil => exact ⟨trivial, rfl, by simp [sessionActs], fun _ _ => trivial⟩
  | cons c rest ih =>
    have hfirst := (sound_draws env).covers_run c.levels c.source (c.start w)
    -- Where a compilation begins, only the random stream has to be that of before.
    have hstart : (Accounting.ofLeads (World.Draws env)).Covers w
        (history env c.levels c.source (c.start w))
        (compile env c.levels c.source (c.start w)).2 :=
      ⟨trivial, hfirst.leads, hfirst.inner, fun _ _ => trivial⟩
    exact (sound_draws env).covers_append hstart (ih _)

/-- Let compilations begin with the stream of a seed and go on with it one after the other. At the
end the stream stands as far behind its start as there were assignments that drew a number, and in
front of every act as far as there were such assignments before it. So the next one of them draws
the number at that place and stores it between its bounds, and the stream after it stands one place
further. Every record draws as many numbers as there are such assignments among its acts. In two
such sequences with one seed the stream is the same in front of any two acts with equally many of
them before. -/
theorem random_session (env : Environment) (seed : UInt64) (calls : List (Compilation φ))
    (w : World φ) :
    let seeded := RandomStream.ofSeed seed
    let start : World φ := { w with random := seeded }
    (session env calls start).random = seeded.advance (drawn env (sessionActs env calls start)) ∧
    (∀ before a after, sessionActs env calls start = before ++ a :: after →
      a.world.random = seeded.advance (drawn env before) ∧
      ∀ p low high, a = .call p → a.drawBounds? env = some (low, high) → ∀ n,
        dispatch env (n + 1) p.record p.world = .finished { announce env p.record p.world with
          store := p.world.store.insert p.record.keyword (Number.text
            (low + (high - low) * ((seeded.advance (drawn env before)).draw.1 - 0) / (1 - 0)))
          random := seeded.advance (drawn env before + 1) }) ∧
    (∀ n r (v : World φ),
      (dispatch env n r v).world.random = v.random.advance (drawn env (acts env n r v))) ∧
    ∀ calls' (w' : World φ) before a after before' a' after',
      sessionActs env calls start = before ++ a :: after →
      sessionActs env calls' { w' with random := seeded } = before' ++ a' :: after' →
      drawn env before = drawn env before' → a.world.random = a'.world.random := by
  intro seeded start
  have hcovers := covers_session env calls start
  have hinner {calls : List (Compilation φ)} {w : World φ} {before after : List (Act φ)}
      {a : Act φ} (h : sessionActs env calls { w with random := seeded } = before ++ a :: after) :
      a.world.random = seeded.advance (drawn env before) :=
    ((covers_session env calls _).inner before a after h).2
  refine ⟨hcovers.leads, ?_, fun n r v => random_dispatch env n r v, ?_⟩
  · intro before a after hsplit
    have hrandom := hinner hsplit
    refine ⟨hrandom, ?_⟩
    rintro p low high rfl hbounds n
    rw [Call.dispatch_of_drawBounds? hbounds, RandomStream.advance_succ, ← hrandom]
    rfl
  · intro calls' w' before a after before' a' after' hsplit hsplit' hsame
    rw [hinner hsplit, hinner hsplit', hsame]

end DeckScript
