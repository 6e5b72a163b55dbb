import DeckScript.Proofs.Levels
import DeckScript.Proofs.MarkupLine
import DeckScript.Proofs.TokenText

/-!
# The variable of a loop

The header of a loop names a variable, and each repetition puts a value in its place. But the name
in the header is itself replaced by the value of the variable, and so is the name in the body: what
a repetition looks for is what the name has become. If the variable is not assigned, or if nothing
else in the body has become the same, the tokens that make way for the value are those that name
the variable. Then the loop does not depend on what is assigned to the variable, and it leaves all
variables alone. If something else has become the same, it makes way as well.

## Main definitions

* `World.withStore` — a state with other variables
* `SourceLine.Clear` — in a line nothing but the name of a variable stands for the variable's value

## Main results

* `SourceLine.Clear.tokens_bind` — a repetition sees a line as if the variable had the value
* `Loop.Header.ofRecord_congr` — where the values come from does not depend on the variable
* `runBlock_loop_withStore` — a loop does not depend on its own variable
-/

namespace DeckScript

variable {φ : Type}

/-! ## Variables and tokens -/

namespace Store

theorem resolve_congr {s s' : Store} {token : String} (h : s.get? token = s'.get? token) :
    s.resolve token = s'.resolve token := by
  rw [resolve, resolve, h]

theorem resolve_insert (store : Store) (v value token : String) :
    Store.resolve (store.insert v value) token =
      if token = v then value else store.resolve token := by
  rw [resolve, Table.get?_insert]
  split <;> rfl

end Store

theorem Table.get?_insert_congr {α : Type} {t t' : Table α} {key : String}
    (h : ∀ k, k ≠ key → t.get? k = t'.get? k) (value : α) (k : String) :
    (t.insert key value).get? k = (t'.insert key value).get? k := by
  rw [get?_insert, get?_insert]
  split
  · rfl
  · rename_i hk
    exact h k hk

theorem Record.keyword_of_head? {r : Record} {keyword : String}
    (h : r.tokens.head? = some keyword) : r.keyword = keyword := by
  obtain ⟨rest, hrest⟩ := List.head?_eq_some_iff.1 h
  rw [Record.keyword, Record.arg, hrest]
  rfl

namespace SourceLine

theorem head?_of_keyword? {l : SourceLine} {keyword : String} (h : l.keyword? = some keyword) :
    (tokenize l.text).head? = some keyword := by
  rw [keyword?] at h
  split at h
  · cases h
  · exact h

theorem head?_ne_of_keyword? {l : SourceLine} {keyword word : String}
    (h : l.keyword? = some keyword) (hne : keyword ≠ word) :
    (tokenize l.text).head? ≠ some word := by
  rw [head?_of_keyword? h]
  exact fun heq => hne (Option.some.inj heq)

theorem head?_tokens_record (l : SourceLine) (store : Store) :
    (l.record store).tokens.head? = (tokenize l.text).head? :=
  head?_resolveArgs store _

theorem keyword_record {l : SourceLine} {keyword : String} (h : l.keyword? = some keyword)
    (store : Store) : (l.record store).keyword = keyword :=
  Record.keyword_of_head? (by rw [head?_tokens_record, head?_of_keyword? h])

theorem keyword_bind {l : SourceLine} {keyword : String} (h : l.keyword? = some keyword)
    (store : Store) (placeholder value : String) :
    ((l.record store).bind placeholder value).keyword =
      if keyword = placeholder then value else keyword := by
  apply Record.keyword_of_head?
  rw [Record.bind, List.head?_map, head?_tokens_record, head?_of_keyword? h]
  rfl

theorem tokens_record_congr (l : SourceLine) {s s' : Store}
    (h : ∀ key, s.get? key = s'.get? key) : (l.record s).tokens = (l.record s').tokens := by
  have hresolve : s.resolve = s'.resolve := funext fun key => Store.resolve_congr (h key)
  rw [record, record, Record.ofLine, Record.ofLine]
  cases tokenize l.text with
  | nil => rfl
  | cons first others => rw [resolveArgs, resolveArgs, hresolve]

/-- Apart from the name `v` itself, no token of the line stands for the value of `v`: neither the
first one, which is taken as it is, nor the value of another one. -/
def Clear (l : SourceLine) (v : String) (store : Store) : Prop :=
  (tokenize l.text).head? ≠ some (store.resolve v) ∧
    ∀ token ∈ (tokenize l.text).tail, token ≠ v → store.resolve token ≠ store.resolve v

variable {l : SourceLine} {v : String} {store : Store}

/-- A repetition sees the line as if `v` had the value. -/
theorem Clear.tokens_bind (h : l.Clear v store) (value : String) :
    ((l.record store).bind (store.resolve v) value).tokens =
      (l.record (store.insert v value)).tokens := by
  obtain ⟨hfirst, hothers⟩ := h
  rw [Record.bind, record, record, Record.ofLine, Record.ofLine]
  dsimp only
  cases htokens : tokenize l.text with
  | nil => rfl
  | cons first others =>
    rw [htokens] at hfirst hothers
    have hkeep : first ≠ store.resolve v := fun h => hfirst (congrArg some h)
    rw [resolveArgs, resolveArgs, List.map_cons, if_neg hkeep, List.map_map]
    congr 1
    refine List.map_congr_left fun token htoken => ?_
    rw [Function.comp_apply, Store.resolve_insert]
    by_cases hv : token = v
    · rw [if_pos hv, if_pos (by rw [hv])]
    · rw [if_neg hv, if_neg (hothers token htoken hv)]

theorem Clear.keyword_bind (h : l.Clear v store) {keyword : String}
    (hkeyword : l.keyword? = some keyword) (value : String) :
    ((l.record store).bind (store.resolve v) value).keyword = keyword := by
  have hne : keyword ≠ store.resolve v := by
    rintro rfl
    exact h.1 (head?_of_keyword? hkeyword)
  rw [SourceLine.keyword_bind hkeyword, if_neg hne]

/-- A variable that is not assigned stands for itself, and nothing else does unless it is the value
of another variable. -/
theorem clear_of_get?_eq_none (hv : store.get? v = none)
    (hothers : ∀ key, key ≠ v → store.get? key ≠ some v)
    (hfirst : (tokenize l.text).head? ≠ some v) : l.Clear v store := by
  rw [Clear, Store.resolve_of_get?_eq_none hv]
  refine ⟨hfirst, fun token _ hne => ?_⟩
  rw [Store.resolve]
  cases hvalue : store.get? token with
  | none => exact hne
  | some value =>
    rintro rfl
    exact hothers token hne hvalue

end SourceLine

/-! ## Headers -/

namespace Loop

variable {r s : Record} {first p q : String} {rest : List String}

/-- Where the values come from does not depend on the variable, unless the header is malformed and
is shown with it. -/
theorem Source.ofRecord_congr (hr : r.tokens = first :: p :: rest)
    (hs : s.tokens = first :: q :: rest) (hlength : 4 ≤ s.length)
    (hform : ∀ tokens, Source.ofRecord s ≠ .error (.loopHeader tokens)) :
    Source.ofRecord r = Source.ofRecord s := by
  have hsize : r.length = s.length := by rw [Record.length, Record.length, hr, hs]; rfl
  have harg (i : Nat) (hi : 2 ≤ i) : r.arg i = s.arg i := by
    obtain ⟨k, rfl⟩ := Nat.exists_eq_add_of_le' hi
    rw [Record.arg, Record.arg, hr, hs]
    rfl
  have hitems : listItems r = listItems s := by
    rw [listItems, listItems, Record.argsFrom, Record.argsFrom, hr, hs]
    rfl
  have hrange : rangeOfRecord r = rangeOfRecord s := by
    rw [rangeOfRecord, rangeOfRecord, hsize, harg 3 (by decide), harg 4 (by decide),
      harg 5 (by decide)]
  rw [Source.ofRecord] at hform
  rw [Source.ofRecord, Source.ofRecord, hsize, harg 3 (by decide), harg (s.length - 1) (by omega),
    hitems, hrange]
  split_ifs at hform ⊢
  · rfl
  · cases hfile : Literal.file? (s.arg 3) with
    | none =>
      rw [hfile] at hform
      exact absurd rfl (hform s.tokens)
    | some name => rfl
  · rfl
  · exact absurd rfl (hform s.tokens)

theorem Header.ofRecord_congr (hr : r.tokens = first :: p :: rest)
    (hs : s.tokens = first :: q :: rest)
    (hform : ∀ tokens, Header.ofRecord s ≠ .error (.loopHeader tokens)) :
    Header.ofRecord r =
      (Header.ofRecord s).map fun loop => { loop with placeholder := p } := by
  have hsize : r.length = s.length := by rw [Record.length, Record.length, hr, hs]; rfl
  have hequals : r.arg 2 = s.arg 2 := by rw [Record.arg, Record.arg, hr, hs]; rfl
  have hname : r.arg 1 = p := by rw [Record.arg, hr]; rfl
  rw [Header.ofRecord] at hform
  rw [Header.ofRecord, Header.ofRecord, hsize, hequals, hname]
  split_ifs at hform ⊢ with hshort
  · exact absurd rfl (hform s.tokens)
  · rw [not_or, Nat.not_lt] at hshort
    have hsource : ∀ tokens, Source.ofRecord s ≠ .error (.loopHeader tokens) := by
      intro tokens h
      rw [h] at hform
      exact hform tokens rfl
    rw [Source.ofRecord_congr hr hs hshort.1 hsource]
    cases Source.ofRecord s <;> rfl

theorem Header.placeholder_of_ofRecord {loop : Header} (h : Header.ofRecord r = .ok loop) :
    loop.placeholder = r.arg 1 := by
  rw [Header.ofRecord] at h
  split_ifs at h
  obtain ⟨source, -, rfl⟩ := exists_of_map_eq_ok h
  rfl

end Loop

/-! ## States with other variables -/

/-- The state with other variables. -/
def World.withStore (w : World φ) (store : Store) : World φ := { w with store }

@[simp] theorem World.store_withStore (w : World φ) (store : Store) :
    (w.withStore store).store = store := rfl

theorem Loop.Source.values_withStore [FileStore φ] (source : Loop.Source) (w : World φ)
    (store : Store) :
    source.values (w.withStore store) =
      ((source.values w).1.withStore store, (source.values w).2) := by
  cases source with
  | range first last step => rfl
  | items tokens => rfl
  | file name =>
    rw [values, values, World.open?, World.open?, World.withStore]
    cases FileStore.read w.files name <;> rfl

/-- The state `u` is the state `w`, which has the variables `s`, but for having `s'` instead. -/
def World.Restored (s s' : Store) (w u : World φ) : Prop := w.store = s ∧ u = w.withStore s'

theorem keptByDrawing_restored (s s' : Store) (line : Nat) :
    KeptByDrawing (World.Restored s s' : World φ → World φ → Prop) line line where
  trace h tokens := by
    obtain ⟨hstore, rfl⟩ := h
    exact ⟨hstore, rfl⟩
  blame h fault := by
    obtain ⟨hstore, rfl⟩ := h
    exact ⟨hstore, rfl⟩
  write := by
    rintro w _ ⟨hstore, rfl⟩ data
    have houtput : w.output = (w.withStore s').output := rfl
    exact together_write houtput (fun output => ⟨hstore, rfl⟩) data

theorem Together.eq_map_withStore {s s' : Store} {o p : Outcome φ}
    (h : Together (World.Restored s s') o p) :
    o.isExhausted = false ∧ o.world.store = s ∧ p = o.map fun u => u.withStore s' := by
  cases h with
  | finished h => exact ⟨rfl, h.1, congrArg Outcome.finished h.2⟩
  | refused h => exact ⟨rfl, h.1, congrArg Outcome.refused h.2⟩

/-! ## A loop with other values of its variable -/

section Loops

variable [FileStore φ] {env : Environment} {header : SourceLine} {body : List SourceLine}
  {v : String} {values : List String} {s s' : Store}

theorem tokens_header (hheader : tokenize header.text = "for" :: v :: "=" :: values)
    (store : Store) :
    (header.record store).tokens =
      "for" :: store.resolve v :: ("=" :: values).map store.resolve := by
  rw [SourceLine.tokens_record hheader, List.map_cons]

/-- The header of a loop that is read with two values of its variable. -/
theorem header_congr (hheader : tokenize header.text = "for" :: v :: "=" :: values)
    (hv : v ∉ "=" :: values) (hstores : ∀ key, key ≠ v → s.get? key = s'.get? key)
    (hform : ∀ tokens, Loop.Header.ofRecord (header.record s) ≠ .error (.loopHeader tokens)) :
    Loop.Header.ofRecord (header.record s') =
      (Loop.Header.ofRecord (header.record s)).map fun loop =>
        { loop with placeholder := s'.resolve v } := by
  have hvalues : ("=" :: values).map s'.resolve = ("=" :: values).map s.resolve := by
    refine List.map_congr_left fun token htoken => Store.resolve_congr ?_
    exact (hstores token (ne_of_mem_of_not_mem htoken hv)).symm
  have hnew := tokens_header hheader s'
  rw [hvalues] at hnew
  exact Loop.Header.ofRecord_congr hnew (tokens_header hheader s) hform

theorem placeholder_eq (hheader : tokenize header.text = "for" :: v :: "=" :: values)
    {store : Store} {loop : Loop.Header}
    (hloop : Loop.Header.ofRecord (header.record store) = .ok loop) :
    loop.placeholder = store.resolve v := by
  rw [Loop.Header.placeholder_of_ofRecord hloop, Record.arg, tokens_header hheader]
  rfl

/-- A loop runs in step with itself when its variable has another value, if in no line anything but
the variable stands for either value. -/
theorem together_runBlock_loop (hstandard : env.vocabulary = .standard)
    (hheader : tokenize header.text = "for" :: v :: "=" :: values) (hv : v ∉ "=" :: values)
    (hbody : ∀ l ∈ body, ∃ keyword, l.keyword? = some keyword ∧ IsMarkupKeyword keyword)
    (hstores : ∀ key, key ≠ v → s.get? key = s'.get? key)
    (hform : ∀ tokens, Loop.Header.ofRecord (header.record s) ≠ .error (.loopHeader tokens))
    (hclear : ∀ l ∈ body, l.Clear v s) (hclear' : ∀ l ∈ body, l.Clear v s') (w : World φ)
    (n : Nat) :
    Together (World.Restored s s')
      (runBlock (dispatch env (n + 1)) (.loop header body) (w.withStore s))
      (runBlock (dispatch env (n + 1)) (.loop header body) (w.withStore s')) := by
  simp only [runBlock, runLoop, World.store_withStore, header_congr hheader hv hstores hform]
  cases hloop : Loop.Header.ofRecord (header.record s) with
  | error fault => exact .finished ⟨rfl, rfl⟩
  | ok loop =>
    simp only [Except.map, placeholder_eq hheader hloop, runSource_eq,
      Loop.Source.values_withStore]
    rcases loop.source.values w with ⟨u, fault | found⟩
    · exact .finished ⟨rfl, rfl⟩
    · refine together_runSteps (List.forall₂_same.2 fun value _ u u' hu => ?_) ⟨rfl, rfl⟩
      refine together_runRecords ?_ hu
      rw [List.map_map, List.map_map, List.forall₂_map_left_iff, List.forall₂_map_right_iff]
      refine List.forall₂_same.2 fun l hl u u' hu => ?_
      obtain ⟨keyword, hkeyword, hmarkup⟩ := hbody l hl
      -- Both repetitions see the line as if the variable had the value.
      have htokens : ((l.record s).bind (s.resolve v) value).tokens =
          ((l.record s').bind (s'.resolve v) value).tokens := by
        rw [(hclear l hl).tokens_bind, (hclear' l hl).tokens_bind]
        exact l.tokens_record_congr (Table.get?_insert_congr hstores value)
      have hword := (hclear' l hl).keyword_bind hkeyword value
      refine KeptByDrawing.dispatch hstandard ?_ htokens (hword ▸ hmarkup) n n hu
      exact keptByDrawing_restored s s' l.number

/-- Let the variable of a loop be an identifier that is none of the values in the header, let all
lines of the body begin with other keywords that only add to the markup, and take two states that
differ in the variable at most, in which it is the value of no other one. If the variable is
assigned, let nothing else in the body stand for its value. Then the loop does the same in both
states: it ends in the same way, with the same markup and the same faults, and leaves the variables
alone. A repetition sees each line of the body as if the variable had the value that is put in:
of all the tokens, those that name the variable are replaced by it. -/
theorem runBlock_loop_withStore (hstandard : env.vocabulary = .standard) (hv : IsIdentifier v)
    (hheader : tokenize header.text = "for" :: v :: "=" :: values) (hvalues : v ∉ values)
    (hbody : ∀ l ∈ body, ∃ keyword, l.keyword? = some keyword ∧ IsMarkupKeyword keyword ∧
      keyword ≠ v)
    (hstores : ∀ key, key ≠ v → s.get? key = s'.get? key)
    (hothers : ∀ key, key ≠ v → s.get? key ≠ some v)
    (hform : ∀ tokens, Loop.Header.ofRecord (header.record s) ≠ .error (.loopHeader tokens))
    (hclear : s.get? v ≠ none → ∀ l ∈ body, l.Clear v s)
    (hclear' : s'.get? v ≠ none → ∀ l ∈ body, l.Clear v s') (w : World φ) (n : Nat) :
    let o := runBlock (dispatch env (n + 1)) (.loop header body) (w.withStore s)
    o.isExhausted = false ∧ o.world.store = s ∧
      runBlock (dispatch env (n + 1)) (.loop header body) (w.withStore s') =
        (o.map fun u => u.withStore s') ∧
      ∀ store ∈ [s, s'], ∀ loop, Loop.Header.ofRecord (header.record store) = .ok loop →
        ∀ l ∈ body, ∀ value, ((l.record store).bind loop.placeholder value).tokens =
          (l.record (store.insert v value)).tokens := by
  intro o
  have hequals : v ∉ "=" :: values := List.not_mem_cons_of_ne_of_not_mem hv.ne_equals hvalues
  have hassigned : ∀ store ∈ [s, s'], (∀ key, key ≠ v → store.get? key ≠ some v) ∧
      (store.get? v ≠ none → ∀ l ∈ body, l.Clear v store) := by
    simp only [List.forall_mem_cons, List.not_mem_nil, false_implies, implies_true, and_true]
    exact ⟨⟨hothers, hclear⟩, fun key hkey => hstores key hkey ▸ hothers key hkey, hclear'⟩
  -- A variable that is not assigned stands for itself, so the lines are clear of it anyway.
  have hall : ∀ store ∈ [s, s'], ∀ l ∈ body, l.Clear v store := by
    intro store hmem l hl
    obtain ⟨hothers, hclear⟩ := hassigned store hmem
    by_cases hnone : store.get? v = none
    · obtain ⟨keyword, hkeyword, -, hne⟩ := hbody l hl
      exact SourceLine.clear_of_get?_eq_none hnone hothers
        (SourceLine.head?_ne_of_keyword? hkeyword hne)
    · exact hclear hnone l hl
  have hmarkup : ∀ l ∈ body, ∃ keyword, l.keyword? = some keyword ∧ IsMarkupKeyword keyword := by
    intro l hl
    obtain ⟨keyword, hkeyword, hmarkup, -⟩ := hbody l hl
    exact ⟨keyword, hkeyword, hmarkup⟩
  have htogether := together_runBlock_loop hstandard hheader hequals hmarkup hstores hform
    (hall s (by simp)) (hall s' (by simp)) w n
  obtain ⟨hends, hstore, hsame⟩ := htogether.eq_map_withStore
  refine ⟨hends, hstore, hsame, ?_⟩
  intro store hmem loop hloop l hl value
  rw [placeholder_eq hheader hloop]
  exact (hall store hmem l hl).tokens_bind value

end Loops

/-! ## A literal that is the old value of the variable -/

/-- The standard vocabulary, with programs that print nothing. -/
def bareEnvironment : Environment := ⟨.standard, 16, false, .ofAnswers fun _ => .ok .empty⟩

/-- A state in which nothing has happened, with the given variables. -/
def bareWorld (store : Store) : World MemoryFiles :=
  ⟨store, .ofSeed 1, .empty, .empty, .unlimited, [], []⟩

/-- The variables of `bareWorld .empty` and `v`. -/
def assignedTo (value : String) : Store := Table.empty.insert "v" value

theorem get?_assignedTo (value : String) {key : String} (hkey : key ≠ "v") :
    (assignedTo value).get? key = none :=
  Table.get?_insert_of_ne Table.empty value hkey

theorem isIdentifier_v : IsIdentifier "v" := isIdentifier_of_isLower rfl (by decide)

/-- A loop that draws a circle for each value. -/
def circleLoop : Block := .loop ⟨1, "for v = 1 2"⟩ [⟨2, "circle v 5 2"⟩]

theorem runBlock_circleLoop :
    let o := runBlock (dispatch bareEnvironment 1) circleLoop
      ((bareWorld .empty).withStore (assignedTo "7"))
    o.isExhausted = false ∧ o.world.store = assignedTo "7" ∧
      runBlock (dispatch bareEnvironment 1) circleLoop ((bareWorld .empty).withStore .empty) =
        (o.map fun u => u.withStore .empty) ∧
      ∀ store ∈ [assignedTo "7", .empty], ∀ loop,
        Loop.Header.ofRecord (SourceLine.record ⟨1, "for v = 1 2"⟩ store) = .ok loop →
        ∀ l ∈ [(⟨2, "circle v 5 2"⟩ : SourceLine)], ∀ value,
          ((l.record store).bind loop.placeholder value).tokens =
            (l.record (store.insert "v" value)).tokens := by
  have hbody : ∀ l ∈ [(⟨2, "circle v 5 2"⟩ : SourceLine)],
      ∃ keyword, l.keyword? = some keyword ∧ IsMarkupKeyword keyword ∧ keyword ≠ "v" := by
    rw [List.forall_mem_singleton]
    exact ⟨"circle", by decide +kernel, by decide +kernel, by decide⟩
  have hform (tokens : List String) :
      Loop.Header.ofRecord (SourceLine.record ⟨1, "for v = 1 2"⟩ (assignedTo "7")) ≠
        .error (.loopHeader tokens) := by
    have hok : (Loop.Header.ofRecord
        (SourceLine.record ⟨1, "for v = 1 2"⟩ (assignedTo "7"))).isOk = true := by decide +kernel
    intro h
    rw [h] at hok
    cases hok
  have hclear : ∀ l ∈ [(⟨2, "circle v 5 2"⟩ : SourceLine)], l.Clear "v" (assignedTo "7") := by
    rw [List.forall_mem_singleton]
    exact ⟨by decide +kernel, by decide +kernel⟩
  have hheader : tokenize "for v = 1 2" = ["for", "v", "=", "1", "2"] := by decide +kernel
  refine runBlock_loop_withStore rfl isIdentifier_v hheader (by decide) hbody ?_ ?_ hform
    (fun _ => hclear) (fun h => absurd rfl h) (bareWorld .empty) 0
  · intro key hkey
    exact get?_assignedTo "7" hkey
  · intro key hkey
    rw [get?_assignedTo "7" hkey]
    exact (Option.some_ne_none "v").symm

/-- With `5` assigned to the variable, the same loop replaces the literal `5` as well. -/
theorem circleLoop_replaces_literal :
    IsIdentifier "v" ∧ tokenize "for v = 1 2" = ["for", "v", "=", "1", "2"] ∧
      tokenize "circle v 5 2" = ["circle", "v", "5", "2"] ∧ IsMarkupKeyword "circle" ∧
      (∀ key, key ≠ "v" → (assignedTo "5").get? key = none) ∧
      (runBlock (dispatch bareEnvironment 1) circleLoop (bareWorld .empty)).world.output.text =
        "<ellipse xp=\"1\" yp=\"5\" wp=\"2\" hr=\"100\"/>\n" ++
        "<ellipse xp=\"2\" yp=\"5\" wp=\"2\" hr=\"100\"/>\n" ∧
      (runBlock (dispatch bareEnvironment 1) circleLoop
        (bareWorld (assignedTo "5"))).world.output.text =
        "<ellipse xp=\"1\" yp=\"1\" wp=\"2\" hr=\"100\"/>\n" ++
        "<ellipse xp=\"2\" yp=\"2\" wp=\"2\" hr=\"100\"/>\n" :=
  ⟨isIdentifier_v, by decide +kernel, by decide +kernel, by decide +kernel,
    fun _ => get?_assignedTo "5", by decide +kernel, by decide +kernel⟩

end DeckScript
