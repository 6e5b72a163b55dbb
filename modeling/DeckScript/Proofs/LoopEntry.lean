import DeckScript.Proofs.BlockLines
import DeckScript.Proofs.LoopValues
import DeckScript.Proofs.LoopVariable
import DeckScript.Proofs.OwnFaults
import Mathlib.Data.List.Nodup

/-!
# A loop's body is resolved when the loop is entered

The tokens of a loop's body get the values of variables when the loop is entered. So what the lines
of the body assign does not reach the lines that add to the markup: a loop whose body mixes such
lines with assignments is compared with the loop whose body is left without the assignments. Both
write the same markup and find the same faults in the lines that are left, in whatever state they
are entered, unless one of these lines begins with the value of the loop's variable. What a
repetition looks for is what the name in the header has become, so the keyword of such a line makes
way for the value of the repetition, and the line may turn into an assignment.

## Main definitions

* `SourceLine.hasKeyword` — a line that begins with a keyword of the language
* `SourceLine.loopName?` — the name of a loop's variable, as it stands in the header
* `World.Pruned` — states that differ in what lines without a keyword do

## Main results

* `World.Pruned.repetition` — a line that only adds to the markup does the same in both states
* `World.Pruned.dispatch` — a line without a keyword keeps to itself what it does
* `runBlock_loop_filter` — the loop does what it does without its assignments
* `circleLines_assign` — a loop whose variable has a keyword as its value, and that keyword in front
  of a line
-/

namespace DeckScript

variable {φ : Type}

/-! ## Lines with and without a keyword -/

/-- The line begins with a keyword of the language. -/
def SourceLine.hasKeyword (l : SourceLine) : Bool :=
  l.keyword?.any fun keyword => (Vocabulary.standard.get? keyword).isSome

theorem SourceLine.hasKeyword_eq {l : SourceLine} {keyword : String}
    (h : l.keyword? = some keyword) :
    l.hasKeyword = (Vocabulary.standard.get? keyword).isSome := by
  rw [hasKeyword, h, Option.any_some]

/-- A value that is put in makes no keyword. -/
theorem get?_keyword_bind {l : SourceLine} {keyword placeholder value : String} (store : Store)
    (hkeyword : l.keyword? = some keyword)
    (hplain : Vocabulary.standard.get? keyword = none)
    (hvalue : Vocabulary.standard.get? value = none) :
    Vocabulary.standard.get? ((l.record store).bind placeholder value).keyword = none := by
  rw [SourceLine.keyword_bind hkeyword]
  split
  · exact hvalue
  · exact hplain

/-- The name of a loop's variable, as it stands in the loop's header. -/
def SourceLine.loopName? (l : SourceLine) : Option String := (tokenize l.text)[1]?

/-- What a repetition looks for is the value of the name in the header. -/
theorem exists_variable_of_ofRecord {header : SourceLine} {store : Store} {loop : Loop.Header}
    (h : Loop.Header.ofRecord (header.record store) = .ok loop) :
    ∃ v, header.loopName? = some v ∧ loop.placeholder = store.resolve v := by
  have hplaceholder := Loop.Header.placeholder_of_ofRecord h
  have hlength : 4 ≤ (header.record store).length := by
    rw [Loop.Header.ofRecord] at h
    split_ifs at h with hshort
    omega
  rw [Record.length, SourceLine.record, Record.ofLine] at hlength
  rw [SourceLine.record, Record.arg, Record.ofLine] at hplaceholder
  dsimp only at hlength hplaceholder
  rw [SourceLine.loopName?]
  generalize tokenize header.text = tokens at hlength hplaceholder ⊢
  rcases tokens with _ | ⟨first, _ | ⟨v, rest⟩⟩
  · simp [resolveArgs] at hlength
  · simp [resolveArgs] at hlength
  · exact ⟨v, rfl, hplaceholder⟩

/-! ## States with and without assignments -/

/-- The event tells that one of the lines is carried out. -/
def Event.isFrom (lines : List Nat) : Event → Bool
  | .traced line _ => line ∈ lines
  | _ => false

/-- The states differ in what the given lines have done since the state `start`: in the variables,
in the random stream, in the faults that were found in these lines and in the note that they were
carried out. -/
structure World.Pruned (lines : List Nat) (start w v : World φ) : Prop where
  output : w.output = v.output
  files : w.files = v.files
  includes : w.includes = v.includes
  report : ∃ found, w.report.toList = start.report.toList ++ found ∧
    v.report.toList = start.report.toList ++ found.filter fun d => d.line ∉ lines
  journal : ∃ events, w.journal = events ++ start.journal ∧
    v.journal = events.filter (fun e => !e.isFrom lines) ++ start.journal

namespace World.Pruned

variable {lines : List Nat} {start w v : World φ}

theorem refl (lines : List Nat) (w : World φ) : World.Pruned lines w w w :=
  ⟨rfl, rfl, rfl, ⟨[], by simp⟩, ⟨[], by simp⟩⟩

theorem note (h : World.Pruned lines start w v) {e : Event} (he : e.isFrom lines = false) :
    World.Pruned lines start (w.note e) (v.note e) where
  __ := h
  journal := by
    obtain ⟨events, hw, hv⟩ := h.journal
    exact ⟨e :: events, by simp [World.note, hw], by simp [World.note, hv, he]⟩

theorem noteLeft (h : World.Pruned lines start w v) {e : Event} (he : e.isFrom lines) :
    World.Pruned lines start (w.note e) v where
  __ := h
  journal := by
    obtain ⟨events, hw, hv⟩ := h.journal
    exact ⟨e :: events, by simp [World.note, hw], by simp [hv, he]⟩

theorem blame (h : World.Pruned lines start w v) {line : Nat} (hline : line ∉ lines)
    (fault : Fault) : World.Pruned lines start (w.blame line fault) (v.blame line fault) where
  __ := h
  report := by
    obtain ⟨found, hw, hv⟩ := h.report
    refine ⟨found ++ [⟨line, w.includes.head?, fault⟩], by simp [World.blame, hw], ?_⟩
    simp [World.blame, hv, hline, h.includes]

theorem blameLeft (h : World.Pruned lines start w v) {line : Nat} (hline : line ∈ lines)
    (fault : Fault) : World.Pruned lines start (w.blame line fault) v where
  __ := h
  report := by
    obtain ⟨found, hw, hv⟩ := h.report
    refine ⟨found ++ [⟨line, w.includes.head?, fault⟩], by simp [World.blame, hw], ?_⟩
    simp [hv, hline]

theorem assign (h : World.Pruned lines start w v) (store : Store) (random : RandomStream) :
    World.Pruned lines start { w with store, random } v where
  __ := h

theorem keptByDrawing {line : Nat} (hline : line ∉ lines) :
    KeptByDrawing (World.Pruned lines start) line line where
  trace h tokens := h.note (by simp [Event.isFrom, hline])
  blame h fault := h.blame hline fault
  write := by
    intro w v h data
    exact together_write h.output (fun output => { h with output := rfl }) data

/-- A repetition of a line that only adds to the markup does the same in both states. -/
theorem repetition [FileStore φ] {env : Environment} (hstandard : env.vocabulary = .standard)
    (h : World.Pruned lines start w v) {l : SourceLine} {keyword placeholder : String}
    (hkeyword : l.keyword? = some keyword) (hmarkup : IsMarkupKeyword keyword)
    (hne : keyword ≠ placeholder) (hline : l.number ∉ lines) (store : Store) (value : String)
    (n : Nat) :
    Together (World.Pruned lines start)
      (DeckScript.dispatch env (n + 1) ((l.record store).bind placeholder value) w)
      (DeckScript.dispatch env (n + 1) ((l.record store).bind placeholder value) v) := by
  have hsame : ((l.record store).bind placeholder value).keyword = keyword := by
    rw [SourceLine.keyword_bind hkeyword, if_neg hne]
  exact (keptByDrawing hline).dispatch hstandard rfl (hsame ▸ hmarkup) n n h

/-- A line without a keyword keeps to itself what it does. -/
theorem dispatch [FileStore φ] {env : Environment} (hstandard : env.vocabulary = .standard)
    (h : World.Pruned lines start w v) {r : Record}
    (hkeyword : Vocabulary.standard.get? r.keyword = none) (hline : r.line ∈ lines) (n : Nat) :
    Together (World.Pruned lines start) (dispatch env (n + 1) r w) (.finished v) := by
  have hannounce : World.Pruned lines start (announce env r w) v := by
    rw [announce]
    split
    · exact h.noteLeft (by simp [Event.isFrom, hline])
    · exact h
  rw [dispatch_succ, execute, hstandard, hkeyword]
  dsimp only
  rcases runAssignment_eq r (announce env r w) with ⟨fault, hfault⟩ | ⟨store, random, -, hdone⟩
  · rw [hfault]
    exact .finished (hannounce.blameLeft hline fault)
  · rw [hdone]
    exact .finished (hannounce.assign store random)

end World.Pruned

/-! ## A loop with and without assignments -/

section Loops

variable [FileStore φ] {env : Environment} {header : SourceLine} {body : List SourceLine}
  {w : World φ}

/-- The numbers of the lines without a keyword. -/
def plainNumbers (body : List SourceLine) : List Nat :=
  (body.filter fun l => !l.hasKeyword).map (·.number)

theorem mem_plainNumbers {l : SourceLine} (hl : l ∈ body)
    (hnumbers : (body.map (·.number)).Nodup) :
    l.number ∈ plainNumbers body ↔ l.hasKeyword = false := by
  rw [plainNumbers, List.mem_map]
  constructor
  · rintro ⟨m, hm, hnumber⟩
    obtain ⟨hbody, hplain⟩ := List.mem_filter.1 hm
    obtain rfl := List.inj_on_of_nodup_map hnumbers hbody hl hnumber
    simpa using hplain
  · intro hplain
    exact ⟨l, List.mem_filter.2 ⟨hl, by simp [hplain]⟩, rfl⟩

theorem pruned_values (lines : List Nat) (source : Loop.Source) (w : World φ) :
    World.Pruned lines w (source.values w).1 (source.values w).1 := by
  rcases source.values_fst w with h | ⟨name, h⟩
  · rw [h]
    exact .refl lines w
  · rw [h]
    exact (World.Pruned.refl lines w).note rfl

/-- Let the lines of a loop in a script with the standard vocabulary begin with keywords that only
add to the markup or with words that are no keywords, and let its variable be no keyword. If the
variable is assigned, let none of the keywords in front of the lines be its value. Then the loop
ends in the same way as the one whose body is left without the lines that have no keyword, with the
same markup. Both find the same faults and carry out the same lines with the same tokens, but for
what they find in the lines that are left out and the note that these are carried out. -/
theorem runBlock_loop_filter (hstandard : env.vocabulary = .standard) {source : Source}
    (hblock : .loop header body ∈ source.blocks)
    (hvariable : ∀ v ∈ header.loopName?, Vocabulary.standard.get? v = none)
    (hbody : ∀ l ∈ body, ∃ keyword, l.keyword? = some keyword ∧
      (IsMarkupKeyword keyword ∨ Vocabulary.standard.get? keyword = none))
    (hvalue : ∀ v ∈ header.loopName?, ∀ value ∈ w.store.get? v, ∀ l ∈ body,
      l.hasKeyword → l.keyword? ≠ some value) (n : Nat) :
    Together (World.Pruned (plainNumbers body) w)
      (runBlock (dispatch env (n + 1)) (.loop header body) w)
      (runBlock (dispatch env (n + 1)) (.loop header (body.filter SourceLine.hasKeyword)) w) := by
  obtain ⟨hheader, hnumbers⟩ := List.nodup_cons.1 (Source.nodup_numbers hblock)
  -- A fault of the header is found on both sides, since no other line has its number.
  have hfault : header.number ∉ plainNumbers body := by
    intro h
    exact hheader ((List.filter_sublist.map _).subset h)
  rw [runBlock, runBlock, runLoop, runLoop]
  cases hloop : Loop.Header.ofRecord (header.record w.store) with
  | error fault => exact .finished ((World.Pruned.refl _ w).blame hfault fault)
  | ok loop =>
    -- A variable that is not assigned stands for itself, and it is no keyword.
    have hplaceholder : ∀ l ∈ body, l.hasKeyword → l.keyword? ≠ some loop.placeholder := by
      intro l hl hkeep
      obtain ⟨v, hv, hstands⟩ := exists_variable_of_ofRecord hloop
      rw [hstands]
      cases hassigned : w.store.get? v with
      | some value =>
        rw [Store.resolve_of_get? hassigned]
        exact hvalue v hv value hassigned l hl hkeep
      | none =>
        rw [Store.resolve_of_get?_eq_none hassigned]
        intro hkeyword
        rw [SourceLine.hasKeyword_eq hkeyword, hvariable v hv] at hkeep
        cases hkeep
    have hopened := pruned_values (plainNumbers body) loop.source w
    have hwords (values : List String) (h : (loop.source.values w).2 = .ok values) :=
      get?_of_mem_values h
    simp only [runSource_eq]
    revert hopened hwords
    rcases loop.source.values w with ⟨u, fault | values⟩
    · intro hopened _
      exact .finished (hopened.blame hfault fault)
    · intro hopened hwords
      refine together_runSteps (List.forall₂_same.2 fun value hmem u u' hu => ?_) hopened
      have hword := hwords values rfl value hmem
      simp only [runRecords_eq_runSteps, List.map_map]
      -- Line by line: the second run stands still where a line is left out.
      refine together_filter ?_ ?_ hu
      · intro l hl hkeep u u' hu
        obtain ⟨keyword, hkeyword, hkind⟩ := hbody l hl
        have hline : l.number ∉ plainNumbers body := by
          rw [mem_plainNumbers hl hnumbers, hkeep]
          simp
        have hmarkup : IsMarkupKeyword keyword := by
          refine hkind.resolve_right fun hplain => ?_
          rw [SourceLine.hasKeyword_eq hkeyword, hplain] at hkeep
          cases hkeep
        have hne : keyword ≠ loop.placeholder := by
          rintro rfl
          exact hplaceholder l hl hkeep hkeyword
        exact hu.repetition hstandard hkeyword hmarkup hne hline w.store value n
      · intro l hl hdrop u u' hu
        obtain ⟨keyword, hkeyword, -⟩ := hbody l hl
        have hplain : Vocabulary.standard.get? keyword = none := by
          rwa [SourceLine.hasKeyword_eq hkeyword, Option.isSome_eq_false_iff,
            Option.isNone_iff_eq_none] at hdrop
        exact hu.dispatch hstandard (get?_keyword_bind w.store hkeyword hplain hword)
          ((mem_plainNumbers hl hnumbers).2 hdrop) n

end Loops

/-! ## A loop that counts -/

/-- A loop that changes a variable in front of the line that draws with it. -/
def countingText : String := "for i = 1 2\nc = c + 1\nsquare c i 1\nefor\n"

theorem runBlock_countingLoop :
    let header : SourceLine := ⟨1, "for i = 1 2"⟩
    let body : List SourceLine := [⟨2, "c = c + 1"⟩, ⟨3, "square c i 1"⟩]
    let w := bareWorld ((Table.empty.insert "c" "1").insert "i" "circle")
    Together (World.Pruned (plainNumbers body) w)
      (runBlock (dispatch bareEnvironment 1) (.loop header body) w)
      (runBlock (dispatch bareEnvironment 1)
        (.loop header (body.filter SourceLine.hasKeyword)) w) := by
  intro header body w
  have hblock : .loop header body ∈ (Source.ofText countingText).blocks := by decide +kernel
  have hvariable : header.loopName? = some "i" := by decide +kernel
  have hassigned : w.store.get? "i" = some "circle" := Table.get?_insert_self _ "i" "circle"
  have hbody : ∀ l ∈ body, ∃ keyword, l.keyword? = some keyword ∧
      (IsMarkupKeyword keyword ∨ Vocabulary.standard.get? keyword = none) := by
    simp only [body, List.forall_mem_cons, List.not_mem_nil, false_implies, implies_true, and_true]
    have hsquare : IsMarkupKeyword "square" := by decide +kernel
    exact ⟨⟨"c", by decide +kernel, .inr rfl⟩, "square", by decide +kernel, .inl hsquare⟩
  refine runBlock_loop_filter rfl hblock ?_ hbody ?_ 0
  · rw [hvariable]
    rintro _ ⟨⟩
    rfl
  · rw [hvariable]
    rintro _ ⟨⟩
    rw [hassigned]
    rintro _ ⟨⟩
    decide +kernel

/-- A loop that assigns a variable and then reads it in a line that begins with a keyword. -/
def circleText : String := "for v = 1 1\nx = 5\ncircle = x + 1\nefor\n"

/-- With `circle` assigned to its variable, the loop assigns twice and finds no fault. Without the
line that has no keyword it finds a fault in the other one. -/
theorem circleLines_assign :
    let header : SourceLine := ⟨1, "for v = 1 1"⟩
    let body : List SourceLine := [⟨2, "x = 5"⟩, ⟨3, "circle = x + 1"⟩]
    let w := bareWorld (assignedTo "circle")
    .loop header body ∈ (Source.ofText circleText).blocks ∧
      header.loopName? = some "v" ∧ Vocabulary.standard.get? "v" = none ∧
      IsMarkupKeyword "circle" ∧ Vocabulary.standard.get? "x" = none ∧
      body.filter SourceLine.hasKeyword = [⟨3, "circle = x + 1"⟩] ∧
      (runBlock (dispatch bareEnvironment 1) (.loop header body) w).world.report.toList = [] ∧
      (runBlock (dispatch bareEnvironment 1)
        (.loop header (body.filter SourceLine.hasKeyword)) w).world.report.toList =
        [⟨3, none, .notANumber "x"⟩] := by
  decide +kernel

end DeckScript
