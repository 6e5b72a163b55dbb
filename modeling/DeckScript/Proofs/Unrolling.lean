import DeckScript.Proofs.BlockLines
import DeckScript.Proofs.Inlining
import DeckScript.Proofs.LoopVariable

/-!
# A loop and its unrolling

A loop is compared with the script in which its body is written out once for each value, with the
value in place of the variable. The loop puts the values into lines that are already cut into tokens
and resolved, and the script has them cut and resolved anew. Both come to the same tokens, so the
two runs stay together line by line.

## Main definitions

* `unroll` — the body written out for each value

## Main results

* `tokens_unrolled` — a line that is written out has the tokens of its repetition
* `compile_unroll` — a loop does what its unrolling does
-/

namespace DeckScript

variable {φ : Type}

/-- The body of a loop written out once for each value, with the value in place of each token that
is the variable. -/
def unroll (v : String) (values body : List String) : List String :=
  values.flatMap fun value => body.map (replaceToken v value)

/-! ## Lines that are written out -/

theorem exists_of_mem_unroll {v : String} {values : List String} {body ms : List SourceLine}
    (hms : ms.map (·.text) = unroll v values (body.map (·.text))) {m : SourceLine} (hm : m ∈ ms) :
    ∃ value ∈ values, ∃ l ∈ body, m.text = replaceToken v value l.text := by
  have hmem := List.mem_map_of_mem (f := (·.text)) hm
  rw [hms] at hmem
  obtain ⟨value, hvalue, hmem⟩ := List.mem_flatMap.1 hmem
  obtain ⟨text, htext, hmtext⟩ := List.mem_map.1 hmem
  obtain ⟨l, hl, rfl⟩ := List.mem_map.1 htext
  exact ⟨value, hvalue, l, hl, hmtext.symm⟩

section Lines

variable {l m : SourceLine} {v value : String} {store : Store}

/-- Putting in a token between blanks does not make a comment line. -/
theorem head?_ne_of_replaceToken (hv : IsIdentifier v) (value : String) {text : String}
    (h : text.toList.head? ≠ some '#') :
    (replaceToken v value text).toList.head? ≠ some '#' := by
  rw [replaceToken, String.toList_ofList]
  rcases replaceTokenChars_eq_or hv value.toList text.toList with
    hsame | ⟨q, d, t, t', -, hold, hnew⟩
  · rwa [hsame]
  · rw [hnew]
    rw [hold] at h
    cases q with
    | nil => simp
    | cons c q => exact h

/-- The keyword of a line stays where it is. -/
theorem keyword?_of_replaceToken (hv : IsIdentifier v) (hvalue : IsToken value)
    (hm : m.text = replaceToken v value l.text) {keyword : String}
    (hkeyword : l.keyword? = some keyword) (hne : keyword ≠ v) : m.keyword? = some keyword := by
  have hfirst := SourceLine.head?_of_keyword? hkeyword
  have hcomment : l.text.toList.head? ≠ some '#' := by
    intro h
    rw [SourceLine.keyword?, if_pos h] at hkeyword
    cases hkeyword
  rw [SourceLine.keyword?, hm, if_neg (head?_ne_of_replaceToken hv value hcomment),
    tokenize_replaceToken hv hvalue, List.head?_map, hfirst, Option.map_some, if_neg hne]

/-- A line that is written out has the tokens of its repetition. -/
theorem tokens_unrolled (hv : IsIdentifier v) (hvalue : IsToken value)
    (hm : m.text = replaceToken v value l.text) (hstore : store.get? value = none)
    (hfirst : (tokenize l.text).head? ≠ some v) :
    (m.record store).tokens = (l.record (store.insert v value)).tokens := by
  rw [SourceLine.record, Record.ofLine, hm, tokenize_replaceToken hv hvalue, SourceLine.record,
    Record.ofLine]
  dsimp only
  cases htokens : tokenize l.text with
  | nil => rfl
  | cons first others =>
    have hkeep : first ≠ v := fun h => hfirst (by rw [htokens, h]; rfl)
    rw [List.map_cons, if_neg hkeep, resolveArgs, resolveArgs, List.map_map]
    congr 1
    refine List.map_congr_left fun token _ => ?_
    rw [Function.comp_apply, Store.resolve_insert]
    split
    · exact Store.resolve_of_get?_eq_none hstore
    · rfl

end Lines

theorem IsMarkupKeyword.ne_block {keyword : String} (h : IsMarkupKeyword keyword) :
    keyword ≠ "for" ∧ keyword ≠ "data" ∧ keyword ≠ "efor" := by
  refine ⟨?_, ?_, ?_⟩ <;>
    · rintro rfl
      exact absurd h (by decide +kernel)

/-! ## The two runs -/

/-- States that differ in their places in the script only, with the variables of a store. -/
def World.Unrolled (store : Store) (w v : World φ) : Prop := w.Inlined 0 v ∧ v.store = store

theorem keptByDrawing_unrolled (store : Store) (l m : Nat) :
    KeptByDrawing (World.Unrolled store : World φ → World φ → Prop) l m where
  trace h tokens := ⟨h.1.trace l m tokens, h.2⟩
  blame h fault := ⟨h.1.blame l m fault, h.2⟩
  write := by
    rintro w v ⟨h, hstore⟩ data
    exact together_write h.output (fun output => ⟨{ h with output := rfl }, hstore⟩) data

section Runs

variable [FileStore φ] {env : Environment} {header closing : SourceLine}
  {body ms : List SourceLine} {v : String} {source : Loop.Source} {values : List String}
  {w : World φ}

omit [FileStore φ] in
theorem Together.verdict_eq {s t : Source} (hs : s.failure = none) (ht : t.failure = none)
    {store : Store} {o p : Outcome φ} (h : Together (World.Unrolled store) o p) :
    o.verdict s = p.verdict t ∧ o.verdict s ≠ .exhausted := by
  cases h with
  | finished h =>
    rw [Outcome.verdict, Outcome.verdict, hs, ht, h.1.output]
    refine ⟨rfl, ?_⟩
    dsimp only
    split
    · intro hexhausted
      cases hexhausted
    · intro hexhausted
      cases hexhausted
  | refused h =>
    rw [Outcome.verdict, Outcome.verdict, h.1.output]
    refine ⟨rfl, ?_⟩
    intro hexhausted
    cases hexhausted

/-- The state in which a loop begins differs from the one in front of it in what was opened. -/
theorem unrolled_values (source : Loop.Source) (w : World φ) :
    World.Unrolled w.store (source.values w).1 w := by
  refine ⟨?_, rfl⟩
  rcases source.values_fst w with h | ⟨name, h⟩
  · rw [h]
    exact .refl w
  · rw [h]
    exact (World.Inlined.refl w).noteLeft rfl

theorem values_renew (source : Loop.Source) (w : World φ) :
    (source.values w.renew).2 = (source.values w).2 := by
  cases source with
  | range first last step => rfl
  | items tokens => rfl
  | file name =>
    simp only [Loop.Source.values, World.open?, World.renew]
    cases FileStore.read w.files name <;> rfl

theorem loopRecords_of_header {loop : Loop.Header}
    (hheader : Loop.Header.ofRecord (header.record w.store) = .ok loop)
    (hvalues : (loop.source.values w).2 = .ok values) :
    loopRecords header body w = ((loop.source.values w).1, .ok (values.flatMap fun value =>
      (body.map fun l => l.record w.store).map fun r => r.bind loop.placeholder value)) := by
  rw [loopRecords, hheader]
  revert hvalues
  dsimp only
  generalize loop.source.values w = found
  rcases found with ⟨u, fault | found⟩
  · intro hvalues
    cases hvalues
  · intro hvalues
    obtain rfl := Except.ok.inj hvalues
    rfl

/-- A repetition of a line and the line that is written out for it stay together. -/
theorem together_unrolled (hstandard : env.vocabulary = .standard) {l m : SourceLine}
    {value : String} {store : Store} {keyword : String} (hv : IsIdentifier v)
    (hvalue : IsToken value) (hm : m.text = replaceToken v value l.text)
    (hassigned : store.get? value = none)
    (hclear : l.Clear v store) (hkeyword : l.keyword? = some keyword)
    (hmarkup : IsMarkupKeyword keyword) (hne : keyword ≠ v) (n : Nat) {w u : World φ}
    (h : World.Unrolled store w u) :
    Together (World.Unrolled store)
      (dispatch env (n + 1) ((l.record store).bind (store.resolve v) value) w)
      (runBlock (dispatch env (n + 1)) (.directive m) u) := by
  rw [runBlock, h.2]
  have hfirst := SourceLine.head?_ne_of_keyword? hkeyword hne
  have htokens : ((l.record store).bind (store.resolve v) value).tokens =
      (m.record store).tokens := by
    rw [hclear.tokens_bind, tokens_unrolled hv hvalue hm hassigned hfirst]
  have hword : (m.record store).keyword = keyword :=
    SourceLine.keyword_record (keyword?_of_replaceToken hv hvalue hm hkeyword hne) store
  exact (keptByDrawing_unrolled store _ _).dispatch hstandard htokens (hword ▸ hmarkup) n n h

/-- A loop and the lines that are written out for it stay together. -/
theorem together_runBlock_unrolled (hstandard : env.vocabulary = .standard)
    (hheader : Loop.Header.ofRecord (header.record w.store) = .ok ⟨v, source⟩)
    (hvalues : (source.values w).2 = .ok values) (hv : IsIdentifier v)
    (hunassigned : w.store.get? v = none) (hothers : ∀ key, w.store.get? key ≠ some v)
    (hscan : ∀ value ∈ values, IsToken value ∧ w.store.get? value = none)
    (hbody : ∀ l ∈ body, ∃ keyword, l.keyword? = some keyword ∧ IsMarkupKeyword keyword ∧
      keyword ≠ v)
    (hms : ms.map (·.text) = unroll v values (body.map (·.text))) (n : Nat) :
    Together (World.Unrolled w.store) (runBlock (dispatch env (n + 1)) (.loop header body) w)
      (runBlocks (dispatch env (n + 1)) (ms.map .directive) w) := by
  -- One pair for each repetition of a line, in the order of both runs.
  let pairs := values.product body
  have hrecords : (values.flatMap fun value =>
      (body.map fun l => l.record w.store).map fun r => r.bind v value) =
        pairs.map fun p => (p.2.record w.store).bind v p.1 := by
    simp only [pairs, List.product, List.map_flatMap, List.map_map, Function.comp_def]
  have htexts : ms.map (·.text) = pairs.map fun p => replaceToken v p.1 p.2.text := by
    rw [hms]
    simp only [pairs, unroll, List.product, List.map_flatMap, List.map_map, Function.comp_def]
  have hpairs : List.Forall₂ (fun p m => (p.1 ∈ values ∧ p.2 ∈ body) ∧
      replaceToken v p.1 p.2.text = m.text) pairs ms := by
    rw [List.forall₂_and_left]
    refine ⟨fun p hp => List.pair_mem_product.1 hp, ?_⟩
    rw [eq_comm, ← List.forall₂_eq_eq_eq, List.forall₂_map_left_iff,
      List.forall₂_map_right_iff] at htexts
    exact htexts
  rw [runBlock, runLoop_eq, loopRecords_of_header hheader hvalues, hrecords]
  dsimp only
  rw [Attempt.settle_outcome, runRecords_eq_runSteps, runBlocks_eq_runSteps, List.map_map,
    List.map_map]
  refine together_runSteps ?_ (unrolled_values source w)
  refine hpairs.imp fun p m hpm u u' hu => ?_
  obtain ⟨⟨hvalue, hl⟩, hm⟩ := hpm
  obtain ⟨hscanned, hassigned⟩ := hscan p.1 hvalue
  obtain ⟨keyword, hkeyword, hmarkup, hne⟩ := hbody p.2 hl
  have hclear : p.2.Clear v w.store :=
    SourceLine.clear_of_get?_eq_none hunassigned (fun key _ => hothers key)
      (SourceLine.head?_ne_of_keyword? hkeyword hne)
  have hstep := together_unrolled hstandard hv hscanned hm.symm hassigned hclear hkeyword hmarkup
    hne n hu
  rwa [Store.resolve_of_get?_eq_none hunassigned] at hstep

/-- Let the variable of a loop be an identifier that is not assigned, no keyword and the value of no
variable, let each value of the loop be a token that is not assigned, and let all lines of its body
begin with keywords that only add to the markup. Then the script that is the loop and the one that
is the body written out for each value end in the same way, with the same output, the same files,
the same random stream and the same faults, and both leave the variables alone. -/
theorem compile_unroll (hstandard : env.vocabulary = .standard) {loop straight : Source}
    (hloop : loop.failure = none) (hstraight : straight.failure = none)
    (hlines : loop.lines = header :: (body ++ [closing]))
    (hunrolled : straight.lines.map (·.text) = unroll v values (body.map (·.text)))
    (hopens : header.keyword? = some "for") (hcloses : closing.keyword? = some "efor")
    (hheader : Loop.Header.ofRecord (header.record w.store) = .ok ⟨v, source⟩)
    (hvalues : (source.values w).2 = .ok values) (hv : IsIdentifier v)
    (hunassigned : w.store.get? v = none) (hkeyword : Vocabulary.standard.get? v = none)
    (hothers : ∀ key, w.store.get? key ≠ some v)
    (hscan : ∀ value ∈ values, IsToken value ∧ w.store.get? value = none)
    (hbody : ∀ l ∈ body, ∃ keyword, l.keyword? = some keyword ∧ IsMarkupKeyword keyword)
    (n : Nat) :
    let looped := compile env (n + 1) loop w
    let unrolled := compile env (n + 1) straight w
    looped.1 = unrolled.1 ∧ looped.1 ≠ .exhausted ∧ looped.2.output = unrolled.2.output ∧
      looped.2.store = w.store ∧ unrolled.2.store = w.store ∧
      looped.2.random = unrolled.2.random ∧ looped.2.files = unrolled.2.files ∧
      looped.2.faults = unrolled.2.faults := by
  intro looped unrolled
  have hne : ∀ l ∈ body, ∃ keyword, l.keyword? = some keyword ∧ IsMarkupKeyword keyword ∧
      keyword ≠ v := by
    intro l hl
    obtain ⟨keyword, hword, hmarkup⟩ := hbody l hl
    refine ⟨keyword, hword, hmarkup, ?_⟩
    rintro rfl
    exact absurd hmarkup.1 (by simp [hkeyword])
  have hblock : loop.blocks = [.loop header body] := by
    apply Source.blocks_eq_loop hloop hlines hopens hcloses
    intro l hl
    obtain ⟨keyword, hword, hmarkup⟩ := hbody l hl
    exact ⟨keyword, hword, hmarkup.ne_block.2.2⟩
  have hdirectives : straight.blocks = straight.lines.map .directive := by
    apply Source.blocks_eq_directives hstraight
    intro m hm
    obtain ⟨value, hvalue, l, hl, hmtext⟩ := exists_of_mem_unroll hunrolled hm
    obtain ⟨keyword, hword, hmarkup, hnev⟩ := hne l hl
    exact ⟨keyword, keyword?_of_replaceToken hv (hscan value hvalue).1 hmtext hword hnev,
      hmarkup.ne_block.1, hmarkup.ne_block.2.1⟩
  have htogether : Together (World.Unrolled w.store) (run env (n + 1) loop w)
      (run env (n + 1) straight w) := by
    have hsingle : runBlocks (dispatch env (n + 1)) [.loop header body] w.renew =
        runBlock (dispatch env (n + 1)) (.loop header body) w.renew := Outcome.andThen_finished _
    rw [run, run, hblock, hdirectives, hsingle]
    exact together_runBlock_unrolled (w := w.renew) hstandard hheader
      ((values_renew source w).trans hvalues) hv hunassigned hothers hscan hne hunrolled n
  obtain ⟨hverdict, hends⟩ := htogether.verdict_eq hloop hstraight
  obtain ⟨hsame, hstore⟩ := htogether.world
  exact ⟨hverdict, hends, hsame.output, hsame.store.trans hstore, hstore, hsame.random,
    hsame.files, hsame.faults⟩

end Runs

/-! ## A loop over a list -/

/-- A loop with a faulty line in its body. -/
def listLoopText : String := "for v = [a b]\ntext v 5 v 2\ncircle v\nefor\n"

/-- The body of the loop written out. -/
def listLinesText : String :=
  "text  \"a\"  5  \"a\"  2\ncircle  \"a\" \ntext  \"b\"  5  \"b\"  2\ncircle  \"b\" \n"

theorem compile_unroll_list :
    let looped := compile bareEnvironment 1 (.ofText listLoopText) (bareWorld .empty)
    let unrolled := compile bareEnvironment 1 (.ofText listLinesText) (bareWorld .empty)
    looped.1 = unrolled.1 ∧ looped.1 ≠ .exhausted ∧ looped.2.output = unrolled.2.output ∧
      looped.2.store = Table.empty ∧ unrolled.2.store = Table.empty ∧
      looped.2.random = unrolled.2.random ∧ looped.2.files = unrolled.2.files ∧
      looped.2.faults = unrolled.2.faults := by
  have hlines : (Source.ofText listLoopText).lines = ⟨1, "for v = [a b]"⟩ ::
      ([⟨2, "text v 5 v 2"⟩, ⟨3, "circle v"⟩] ++ [⟨4, "efor"⟩]) := by decide +kernel
  have hunrolled : (Source.ofText listLinesText).lines.map (·.text) =
      unroll "v" ["\"a\"", "\"b\""] ["text v 5 v 2", "circle v"] := by decide +kernel
  have hscan : ∀ value ∈ ["\"a\"", "\"b\""], IsToken value ∧
      (bareWorld .empty).store.get? value = none := by
    simp only [List.forall_mem_cons, List.not_mem_nil, false_implies, implies_true, and_true]
    exact ⟨⟨⟨.quoted, rfl, by decide +kernel⟩, rfl⟩, ⟨.quoted, rfl, by decide +kernel⟩, rfl⟩
  have hbody : ∀ l ∈ [(⟨2, "text v 5 v 2"⟩ : SourceLine), ⟨3, "circle v"⟩],
      ∃ keyword, l.keyword? = some keyword ∧ IsMarkupKeyword keyword := by
    simp only [List.forall_mem_cons, List.not_mem_nil, false_implies, implies_true, and_true]
    exact ⟨⟨"text", by decide +kernel⟩, "circle", by decide +kernel⟩
  have hheader : Loop.Header.ofRecord (SourceLine.record ⟨1, "for v = [a b]"⟩ .empty) =
      .ok ⟨"v", .items ["a", "b"]⟩ := by decide +kernel
  have hothers (key : String) : (bareWorld .empty).store.get? key ≠ some "v" :=
    (Option.some_ne_none "v").symm
  exact compile_unroll rfl rfl rfl hlines hunrolled (by decide +kernel) (by decide +kernel) hheader
    rfl isIdentifier_v rfl (by decide +kernel) hothers hscan hbody 0

end DeckScript
