import DeckScript.Tool.Disk

/-!
# The places along a path

What a path opens on a disk depends on the places along it and on nothing else. So two disks that
hold the same everywhere but under one key do the same for all paths that do not lead through that
key, and after a file is replaced on both they still hold the same everywhere else.

## Main definitions

* `Disk.trail`, `Disk.Avoids` — the places along a path, and a path that keeps off one
* `Disk.AgreeOff`, `Disk.AgreeAt` — disks that hold the same everywhere but under a key, and
  under it

## Main results

* `Disk.AgreeOff.openForReading`, `Disk.AgreeOff.read` — disks read the same off a key
* `Disk.AgreeOff.write` — and replacing a file keeps them as they are
-/

namespace DeckScript.Disk

/-! ## Trails -/

/-- The keys of the places that names lead to, from a directory on: what stands there decides how
the names are walked along. -/
def trailFrom (absolute : Bool) : List String → List String → List String
  | walked, [] => [key absolute walked]
  | walked, n :: rest =>
    key absolute (follow absolute walked n) :: trailFrom absolute (follow absolute walked n) rest

/-- The keys of the places along a path, with the one that it leads to. -/
def trail (path : String) : List String := trailFrom (isAbsolute path) [] (names path)

/-- The path does not lead through the place, if there is one. -/
def Avoids (path : String) (k? : Option String) : Prop := ∀ k ∈ trail path, k? ≠ some k

instance (path : String) (k? : Option String) : Decidable (Avoids path k?) :=
  inferInstanceAs (Decidable (∀ k ∈ trail path, k? ≠ some k))

variable {d d' : Disk} {k? : Option String} {path : String}

theorem walk_congr (absolute : Bool) {walked ns : List String}
    (h : ∀ k ∈ trailFrom absolute walked ns, d.nodes.get? k = d'.nodes.get? k) :
    d.walk absolute walked ns = d'.walk absolute walked ns := by
  induction ns generalizing walked with
  | nil => rfl
  | cons n rest ih =>
    have hnext := h _ List.mem_cons_self
    have hrest := ih fun k hk => h k (List.mem_cons_of_mem _ hk)
    cases rest with
    | nil => rfl
    | cons m ms => simp only [walk, hnext] at hrest ⊢; rw [hrest]

/-- Walking along names leads to a place on their trail. -/
theorem mem_trailFrom_of_walk {absolute : Bool} {walked ns : List String} {k : String}
    (h : d.walk absolute walked ns = .ok k) : k ∈ trailFrom absolute walked ns := by
  induction ns generalizing walked with
  | nil =>
    cases h
    exact List.mem_singleton_self _
  | cons n rest ih =>
    rw [walk] at h
    split at h
    · cases h
    · dsimp only at h
      split at h
      · cases h
        exact List.mem_cons_self
      · exact List.mem_cons_of_mem _ (ih h)
      · cases h
      · cases h

/-- The place that a path leads to is on its trail. -/
theorem Avoids.ne_of_locate (h : Avoids path k?) {k : String} (hk : d.locate path = .ok k) :
    k? ≠ some k := by
  rw [locate] at hk
  split at hk
  · cases hk
  · split at hk
    · cases hk
    · exact h k (mem_trailFrom_of_walk hk)

/-! ## Disks that hold the same off one place -/

/-- The disks hold the same everywhere but under the key, if there is one. -/
def AgreeOff (k? : Option String) (d d' : Disk) : Prop :=
  ∀ k, k? ≠ some k → d.nodes.get? k = d'.nodes.get? k

/-- The disks hold the same under the key, if there is one. -/
def AgreeAt (k? : Option String) (d d' : Disk) : Prop :=
  ∀ k, k? = some k → d.nodes.get? k = d'.nodes.get? k

namespace AgreeOff

theorem refl (k? : Option String) (d : Disk) : AgreeOff k? d d := fun _ _ => rfl

theorem trans {e : Disk} (h : AgreeOff k? d d') (h' : AgreeOff k? d' e) : AgreeOff k? d e :=
  fun k hk => (h k hk).trans (h' k hk)

theorem insert (h : AgreeOff k? d d') (k : String) (node : Node) :
    AgreeOff k? ⟨d.nodes.insert k node⟩ ⟨d'.nodes.insert k node⟩ := by
  intro l hl
  rw [Table.get?_insert, Table.get?_insert, h l hl]

theorem overwrite (h : AgreeOff k? d d') {k : String} (hk : k? ≠ some k) (bytes : ByteArray) :
    AgreeOff k? (d.overwrite k bytes) (d'.overwrite k bytes) := by
  rw [Disk.overwrite, Disk.overwrite, h k hk]
  split
  · exact h.insert k _
  · exact h

section Paths

variable (h : AgreeOff k? d d') (hpath : Avoids path k?)
include h hpath

theorem locate : d.locate path = d'.locate path := by
  have hwalk := walk_congr (isAbsolute path) fun k hk => h k (hpath k hk)
  simp only [Disk.locate, hwalk]

theorem openForReading : d.openForReading path = d'.openForReading path := by
  rw [Disk.openForReading, Disk.openForReading, h.locate hpath]
  cases hk : d'.locate path with
  | error refusal => rfl
  | ok k => simp only [bind, Except.bind, h k (hpath.ne_of_locate hk)]

/-- The disks read the same along a path that keeps off the place. -/
theorem read : FileStore.read d path = FileStore.read d' path := by
  simp only [FileStore.read, readText, h.openForReading hpath]

theorem openForWriting : d.openForWriting path = d'.openForWriting path := by
  rw [Disk.openForWriting, Disk.openForWriting, h.locate hpath]
  cases hk : d'.locate path with
  | error refusal => rfl
  | ok k => simp only [bind, Except.bind, h k (hpath.ne_of_locate hk)]

end Paths

end AgreeOff

/-! ## Creating and replacing files -/

/-- A file that is opened for writing is at a place that the path leads to. -/
theorem Avoids.ne_of_openForWriting (h : Avoids path k?) {k : String} {node : Node}
    (hopen : d.openForWriting path = .ok (k, node)) : k? ≠ some k := by
  rw [openForWriting] at hopen
  cases hk : d.locate path with
  | error refusal =>
    rw [hk] at hopen
    cases hopen
  | ok l =>
    rw [hk] at hopen
    simp only [bind, Except.bind] at hopen
    split at hopen <;> cases hopen
    exact h.ne_of_locate hk

/-- What is opened for writing stands at its place, unless it is a file that is to be made. -/
theorem get?_of_openForWriting {k : String} {node : Node}
    (hopen : d.openForWriting path = .ok (k, node)) :
    d.nodes.get? k = some node ∨ node = .file .empty := by
  rw [openForWriting] at hopen
  cases hk : d.locate path with
  | error refusal =>
    rw [hk] at hopen
    cases hopen
  | ok l =>
    rw [hk] at hopen
    simp only [bind, Except.bind] at hopen
    split at hopen <;> cases hopen
    cases d.nodes.get? k with
    | none => exact .inr rfl
    | some node => exact .inl rfl

theorem agreeOff_insert (d : Disk) (k : String) (node : Node) :
    AgreeOff (some k) d ⟨d.nodes.insert k node⟩ := by
  intro l hl
  rw [Table.get?_insert_of_ne]
  rintro rfl
  exact hl rfl

theorem agreeAt_insert {k : String} (hk : k? ≠ some k) (d : Disk) (node : Node) :
    AgreeAt k? d ⟨d.nodes.insert k node⟩ := by
  intro l hl
  rw [Table.get?_insert_of_ne]
  rintro rfl
  exact hk hl

/-- A file that is created is empty, a device stays as it is, and so does all the rest. -/
theorem agreeOff_create {e : Disk} {k : String} {node : Node}
    (h : d.create path = .ok (e, k, node)) :
    AgreeOff (some k) d e ∧ e.nodes.get? k = some node ∧
      ∀ contents, node = .file contents → contents = .empty := by
  rw [create] at h
  cases hopen : d.openForWriting path with
  | error refusal =>
    rw [hopen] at h
    cases h
  | ok found =>
    obtain ⟨l, opened⟩ := found
    have hget := get?_of_openForWriting hopen
    rw [hopen] at h
    cases opened with
    | file contents =>
      cases h
      refine ⟨agreeOff_insert d k _, Table.get?_insert_self _ _ _, ?_⟩
      rintro _ ⟨⟩
      rfl
    | directory | sink | full =>
      cases h
      exact ⟨.refl _ d, hget.resolve_right nofun, nofun⟩

theorem AgreeAt.overwrite (h : AgreeAt k? d d') {k : String} (hk : k? ≠ some k)
    (bytes : ByteArray) : AgreeAt k? d (d'.overwrite k bytes) := by
  rw [Disk.overwrite]
  split
  · exact fun l hl => (h l hl).trans (agreeAt_insert hk d' _ l hl)
  · exact h

/-- Replacing a file off the place is refused on both disks for the same reason, or else the disks
still agree off the place, and under it nothing changes. -/
theorem AgreeOff.replace (h : AgreeOff k? d d') (hpath : Avoids path k?) (bytes : ByteArray) :
    (∃ refusal, d.replace path bytes = .error refusal ∧ d'.replace path bytes = .error refusal) ∨
      ∃ e e', d.replace path bytes = .ok e ∧ d'.replace path bytes = .ok e' ∧
        AgreeOff k? e e' ∧ AgreeAt k? d' e' := by
  simp only [Disk.replace, create, h.openForWriting hpath]
  cases hopen : d'.openForWriting path with
  | error refusal => exact .inl ⟨refusal, rfl, rfl⟩
  | ok found =>
    obtain ⟨k, node⟩ := found
    have hk := hpath.ne_of_openForWriting hopen
    have hsame : AgreeAt k? d' d' := fun _ _ => rfl
    cases node with
    | file contents =>
      exact .inr ⟨_, _, rfl, rfl, (h.insert k _).overwrite hk bytes,
        (agreeAt_insert hk d' _).overwrite hk bytes⟩
    | directory | sink =>
      exact .inr ⟨_, _, rfl, rfl, h.overwrite hk bytes, hsame.overwrite hk bytes⟩
    | full =>
      simp only [bind, Except.bind]
      split
      · exact .inr ⟨d, d', rfl, rfl, h, hsame⟩
      · exact .inl ⟨.noSpace, rfl, rfl⟩

/-- The same for the files of a script. -/
theorem AgreeOff.write (h : AgreeOff k? d d') (hpath : Avoids path k?) (contents : String) :
    (∃ reason, FileStore.write d path contents = .error reason ∧
      FileStore.write d' path contents = .error reason) ∨
      ∃ e e', FileStore.write d path contents = .ok e ∧
        FileStore.write d' path contents = .ok e' ∧ AgreeOff k? e e' ∧ AgreeAt k? d' e' := by
  simp only [FileStore.write]
  rcases h.replace hpath contents.toUTF8 with ⟨refusal, he, he'⟩ | ⟨e, e', he, he', hagree⟩
  · rw [he, he']
    exact .inl ⟨refusal.message, rfl, rfl⟩
  · rw [he, he']
    exact .inr ⟨e, e', rfl, rfl, hagree⟩

/-- Writing over an empty file leaves it with the bytes. -/
theorem get?_overwrite {k : String} (h : d.nodes.get? k = some (.file .empty))
    (bytes : ByteArray) : (d.overwrite k bytes).nodes.get? k = some (.file bytes) := by
  have hrest : ByteArray.empty.extract bytes.size ByteArray.empty.size = .empty := by
    rw [ByteArray.extract_eq_empty_iff]
    exact Nat.le_trans (Nat.min_le_right _ _) (Nat.zero_le _)
  simp only [overwrite, h, Table.get?_insert_self, hrest, ByteArray.append_empty]

/-- Writing over the file under a key changes nothing else. -/
theorem agreeOff_overwrite (d : Disk) (k : String) (bytes : ByteArray) :
    AgreeOff (some k) d (d.overwrite k bytes) := by
  rw [overwrite]
  split
  · exact agreeOff_insert d k _
  · exact .refl _ d

end DeckScript.Disk
