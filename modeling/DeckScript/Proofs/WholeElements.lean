import DeckScript.Proofs.Accounting
import DeckScript.Proofs.ElementLines
import DeckScript.Proofs.LoopEntry
import DeckScript.Proofs.StoreInvariant
import Mathlib.Algebra.GroupWithZero.Nat

/-!
# The output is made of whole elements

Every write of a run takes whole elements, each on a line of its own, as long as no program's output
is copied in. So at every moment the output is a number of whole lines, and what a record adds to it
are the elements of the directives that it carries out.

## Main definitions

* `IsChartLine` — a line that begins with the keyword of a chart
* `Act.elementCount` — the number of elements that an act writes by itself
* `World.WritesLines` — so many lines of markup are written between two states

## Main results

* `sound_markupAccounting` — the elements of the acts add up
* `output_whole_elements` — the output and the variables at every moment of a run
-/

namespace DeckScript

variable {φ : Type}

/-- The line begins with the keyword of a chart. -/
def IsChartLine (text : String) : Prop :=
  ∃ keyword ∈ Vocabulary.chartKeywords, (tokenize text).head? = some keyword

instance : DecidablePred IsChartLine := fun text =>
  inferInstanceAs (Decidable (∃ keyword ∈ Vocabulary.chartKeywords,
    (tokenize text).head? = some keyword))

/-! ## Records without charts -/

theorem Record.head?_of_keyword_ne {r : Record} (h : r.keyword ≠ "") :
    r.tokens.head? = some r.keyword := by
  rw [keyword, arg] at h ⊢
  cases htokens : r.tokens with
  | nil =>
    rw [htokens] at h
    exact absurd rfl h
  | cons first rest => rfl

theorem ne_of_mem_chartKeywords {keyword : String} (h : keyword ∈ Vocabulary.chartKeywords) :
    keyword ≠ "" := by
  rintro rfl
  revert h
  decide

theorem isSome_of_mem_chartKeywords :
    ∀ keyword ∈ Vocabulary.chartKeywords, (Vocabulary.standard.get? keyword).isSome := by
  decide +kernel

theorem notMem_chartKeywords_of_get? {word : String}
    (h : Vocabulary.standard.get? word = none) : word ∉ Vocabulary.chartKeywords := by
  intro hmem
  have hsome := isSome_of_mem_chartKeywords word hmem
  rw [h] at hsome
  cases hsome

theorem keyword_ofLine_notMem {text : String} (h : ¬ IsChartLine text) (store : Store)
    (line : Nat) : (Record.ofLine store line text).keyword ∉ Vocabulary.chartKeywords := by
  intro hmem
  have hhead := Record.head?_of_keyword_ne (ne_of_mem_chartKeywords hmem)
  rw [Record.ofLine, head?_resolveArgs] at hhead
  exact h ⟨_, hmem, hhead⟩

/-- A word that is put in for the first token of a record makes no chart of it. -/
theorem keyword_map_notMem {r s : Record} {f : String → String} (hs : s.tokens = r.tokens.map f)
    (hf : ∀ token, f token = token ∨ Vocabulary.standard.get? (f token) = none)
    (hr : r.keyword ∉ Vocabulary.chartKeywords) : s.keyword ∉ Vocabulary.chartKeywords := by
  intro hmem
  have hhead := Record.head?_of_keyword_ne (ne_of_mem_chartKeywords hmem)
  rw [hs, List.head?_map, Option.map_eq_some_iff] at hhead
  obtain ⟨first, hfirst, hput⟩ := hhead
  have hkeyword : r.keyword = first := Record.keyword_of_head? hfirst
  rcases hf first with hsame | hnone
  · rw [← hput, hsame, ← hkeyword] at hmem
    exact hr hmem
  · rw [← hput] at hmem
    exact notMem_chartKeywords_of_get? hnone hmem

theorem Grid.Cursor.keyword_cell_notMem (c : Grid.Cursor) {text : String}
    (h : ¬ IsChartLine text) (store : Store) (line : Nat) :
    (c.cell store line text).keyword ∉ Vocabulary.chartKeywords := by
  refine keyword_map_notMem (r := Record.ofLine store line text) rfl (fun token => ?_)
    (keyword_ofLine_notMem h store line)
  have hnumber (v : Float) : Vocabulary.standard.get? (Number.text v) = none := by
    apply get?_of_beginsUpright
    rw [Number.text, String.toList_ofList]
    exact Number.beginsUpright_chars v
  rw [coordinate]
  split_ifs
  · exact .inr (hnumber c.x)
  · exact .inr (hnumber c.y)
  · exact .inl rfl

section Files

variable [FileStore φ]

theorem keyword_notMem_of_mem_loopRecords {header : SourceLine} {body : List SourceLine}
    {w u : World φ} {rs : List Record} (hlines : ∀ l ∈ body, ¬ IsChartLine l.text)
    (h : loopRecords header body w = (u, .ok rs)) :
    ∀ r ∈ rs, r.keyword ∉ Vocabulary.chartKeywords := by
  intro r hr
  obtain ⟨loop, values, value, l, -, hvalues, hvalue, hl, rfl⟩ := exists_of_mem_loopRecords h hr
  refine keyword_map_notMem (r := l.record w.store) rfl (fun token => ?_)
    (keyword_ofLine_notMem (hlines l hl) w.store l.number)
  split
  · exact .inr (get?_of_mem_values (w := w) (by rw [hvalues]) value hvalue)
  · exact .inl rfl

/-! ## What an act writes -/

/-- The number of elements that an act writes by itself: none if it has a fault or is no directive,
and else those of its keyword. -/
def Act.elementCount (env : Environment) : Act φ → Nat
  | .call p =>
    if (Act.call p).fault? env = none ∧ (env.vocabulary.get? p.record.keyword).isSome then
      DeckScript.elementCount p.record.keyword
    else 0
  | .loop _ _ _ => 0
  | .data _ _ _ => 0

omit [FileStore φ] in
/-- Between the two states so many lines of markup are written. -/
def World.WritesLines (w v : World φ) (n : Nat) : Prop :=
  ∃ lines, (∀ line ∈ lines, IsElementLine line) ∧ lines.length = n ∧
    v.output.bytes = w.output.bytes ++ (linesText lines).toUTF8

omit [FileStore φ] in
theorem World.WritesLines.of_eq {w v : World φ} (h : v.output = w.output) : w.WritesLines v 0 := by
  refine ⟨[], by simp, rfl, ?_⟩
  rw [h]
  simp [linesText]

omit [FileStore φ] in
theorem World.WritesLines.trans {u v w : World φ} {m n : Nat} (h : u.WritesLines v m)
    (h' : v.WritesLines w n) : u.WritesLines w (m + n) := by
  obtain ⟨ls, hls, rfl, hbytes⟩ := h
  obtain ⟨ms, hms, rfl, hbytes'⟩ := h'
  refine ⟨ls ++ ms, List.forall_mem_append.2 ⟨hls, hms⟩, List.length_append, ?_⟩
  rw [hbytes', hbytes, linesText_append, ByteArray.append_assoc]
  simp

omit [FileStore φ] in
/-- An output without a limit takes all elements. -/
theorem World.writesLines_emit {w : World φ} (hroom : w.output.room = none)
    {elements : List Markup.Element} (h : ∀ e ∈ elements, e.OneLine) :
    (w.emit elements).world.output.room = none ∧
      w.WritesLines (w.emit elements).world elements.length := by
  have hwrite : (w.emit elements).world.output = { w.output with
      bytes := w.output.bytes ++ (linesText (elements.map Markup.Element.text)).toUTF8 } := by
    rw [World.emit, World.write, linesText_map_text]
    simp only [Output.write, hroom, Outcome.world]
  refine ⟨by rw [hwrite]; exact hroom, elements.map Markup.Element.text, ?_, by simp, ?_⟩
  · intro line hline
    obtain ⟨e, he, rfl⟩ := List.mem_map.1 hline
    exact (h e he).isElementLine
  · rw [hwrite]

/-! ## The elements of a run -/

/-- On good lines, which hold neither breaks nor charts, an output grows by the elements of the
acts. -/
def markupAccounting (φ : Type) [FileStore φ] (env : Environment) : Accounting φ where
  line text := OneLine text ∧ ¬ IsChartLine text
  state w := w.store.OneLine ∧ w.output.room = none
  record r := r.OneLine ∧ r.keyword ∉ Vocabulary.chartKeywords
  leads w as v := w.WritesLines v (as.map (Act.elementCount env)).sum

variable {env : Environment}

theorem Act.elementCount_of_fault {a : Act φ} {f : Fault} (h : a.fault? env = some f) :
    a.elementCount env = 0 := by
  cases a with
  | call p => rw [elementCount, if_neg (by simp [h])]
  | loop _ _ _ => rfl
  | data _ _ _ => rfl

theorem Call.Asks.elementCount_eq {p : Call φ} {request : Request} (h : p.Asks env request)
    (hnone : (Act.call p).fault? env = none) :
    (Act.call p).elementCount env = DeckScript.elementCount p.record.keyword := by
  obtain ⟨d, hd, -⟩ := h
  rw [Act.elementCount, if_pos ⟨hnone, by rw [hd]; rfl⟩]

omit [FileStore φ] in
/-- What a call writes that asks for something. -/
theorem Call.Asks.writes (hstandard : env.vocabulary = .standard) {p : Call φ}
    {request : Request} (h : p.Asks env request) (hp : p.record.OneLine)
    (hchart : p.record.keyword ∉ Vocabulary.chartKeywords) :
    match request with
    | .emit elements =>
      elements.length = DeckScript.elementCount p.record.keyword ∧ ∀ e ∈ elements, e.OneLine
    | .enter _ | .fillGrid _ _ => DeckScript.elementCount p.record.keyword = 0
    | .chart _ | .set _ _ | .run _ => False := by
  obtain ⟨d, hd, hask⟩ := h
  have hwrites := Vocabulary.writesAs (hstandard ▸ hd) p.world.store p.record request hask hp
  cases request with
  | emit elements => exact hwrites
  | enter name => exact hwrites
  | fillGrid file layout => exact hwrites
  | chart command => exact hchart hwrites
  | set name value => exact hwrites
  | run text => exact hwrites

/-- The elements that an act writes by itself. -/
theorem Act.Effect.writes (hstandard : env.vocabulary = .standard) {a : Act φ} {v : World φ}
    (h : a.Effect env v) (hnone : a.fault? env = none) (hstore : a.world.store.OneLine)
    (hroom : a.world.output.room = none)
    (hrecord : ∀ p, a = .call p →
      p.record.OneLine ∧ p.record.keyword ∉ Vocabulary.chartKeywords) :
    (v.store.OneLine ∧ v.output.room = none) ∧ a.world.WritesLines v (a.elementCount env) := by
  cases h with
  | @assign p _ hkeyword hdone =>
    have hcount : (Act.call p).elementCount env = 0 := by
      rw [elementCount, if_neg (by simp [hkeyword])]
    obtain ⟨events, hannounce⟩ := p.world.onlyAsked_announce env p.record
    have houtput : v.output = p.world.output := by
      rcases runAssignment_eq p.record (announce env p.record p.world) with
        ⟨fault, hfault⟩ | ⟨store, random, -, heq⟩
      · rw [hfault] at hdone
        cases hdone
      · rw [heq] at hdone
        cases hdone
        rw [hannounce]
    have hstores := oneLine_runAssignment (hrecord p rfl).1
      (by rw [Call.announce_store]; exact hstore) hdone
    rw [hcount]
    exact ⟨⟨hstores, houtput ▸ hroom⟩, .of_eq houtput⟩
  | @emit p elements hasks =>
    obtain ⟨hp, hchart⟩ := hrecord p rfl
    obtain ⟨hlength, helements⟩ := hasks.writes hstandard hp hchart
    obtain ⟨events, hannounce⟩ := p.world.onlyAsked_announce env p.record
    rw [hasks.elementCount_eq hnone, ← hlength, hannounce]
    obtain ⟨hroom', hlines⟩ := World.writesLines_emit
      (w := { p.world with journal := events ++ p.world.journal }) hroom helements
    refine ⟨⟨?_, hroom'⟩, hlines⟩
    rw [World.emit, World.store_write]
    exact hstore
  | @chart p _ _ hasks =>
    obtain ⟨hp, hchart⟩ := hrecord p rfl
    exact (hasks.writes hstandard hp hchart).elim
  | @set p _ _ hasks =>
    obtain ⟨hp, hchart⟩ := hrecord p rfl
    exact (hasks.writes hstandard hp hchart).elim
  | @nest p request _ hasks hnests hasked =>
    obtain ⟨hp, hchart⟩ := hrecord p rfl
    have hwrites := hasks.writes hstandard hp hchart
    have hcount : DeckScript.elementCount p.record.keyword = 0 := by
      cases request with
      | enter name => exact hwrites
      | fillGrid file layout => exact hwrites
      | run text => exact hwrites.elim
      | emit _ | chart _ | set _ _ => exact hnests.elim
    rw [hasks.elementCount_eq hnone, hcount]
    obtain ⟨events, rfl⟩ := hasked
    exact ⟨⟨hstore, hroom⟩, .of_eq rfl⟩
  | loop hasked =>
    obtain ⟨events, rfl⟩ := hasked
    exact ⟨⟨hstore, hroom⟩, .of_eq rfl⟩
  | save => exact ⟨⟨hstore, hroom⟩, .of_eq rfl⟩

theorem sound_markupAccounting (hstandard : env.vocabulary = .standard) :
    (markupAccounting φ env).Sound env where
  nil := .of_eq rfl
  append h h' := by
    simp only [markupAccounting] at h h' ⊢
    rw [List.map_append, List.sum_append]
    exact h.trans h'
  shift includes hw := ⟨hw, .of_eq rfl⟩
  act {a v} h hw hrecord := by
    simp only [markupAccounting, List.map_cons, List.map_nil, List.sum_cons, List.sum_nil,
      Nat.add_zero]
    cases h with
    | @fault f u hfault hasked =>
      obtain ⟨events, rfl⟩ := hasked
      rw [Act.elementCount_of_fault hfault]
      exact ⟨hw, .of_eq rfl⟩
    | effect hnone heffect => exact heffect.writes hstandard hnone hw.1 hw.2 hrecord
  directive {l w} hl hw :=
    ⟨hw.1.ofLine hl.1 l.number, keyword_ofLine_notMem hl.2 w.store l.number⟩
  body hlines hw hrecords r hr :=
    ⟨oneLine_of_mem_loopRecords (fun l hl => (hlines l hl).1) hw.1 hrecords r hr,
      keyword_notMem_of_mem_loopRecords
        (fun l hl => (hlines l (List.mem_cons_of_mem _ hl)).2) hrecords r hr⟩
  cell {c line text w} hl hw :=
    ⟨c.oneLine_cell hw.1 hl.1 line, c.keyword_cell_notMem hl.2 w.store line⟩

/-! ## Every moment of a run -/

theorem Call.oneLine_of_mem_linesRead {p : Call φ} {text : String}
    (h : text ∈ p.linesRead env) : OneLine text := by
  have hsource {source : Source} (h : text ∈ source.actLines.map SourceLine.text) :
      OneLine text := by
    obtain ⟨l, hl, rfl⟩ := List.mem_map.1 h
    exact Source.oneLine_of_mem_lines (Source.mem_lines_of_mem_actLines hl)
  rw [linesRead] at h
  split at h
  · split at h
    · exact hsource h
    · cases h
  · split at h
    · exact Text.oneLine_of_mem_lines h
    · cases h
  · exact hsource h
  all_goals cases h

/-- A call that nests nothing is its only act. -/
theorem Call.acts_eq_singleton {p : Call φ}
    (h : ∀ request, p.Asks env request → ¬ request.IsNesting) (n : Nat) :
    acts env (n + 1) p.record p.world = [.call p] := by
  rw [acts]
  cases hd : env.vocabulary.get? p.record.keyword with
  | none => rfl
  | some d =>
    cases hask : d.ask p.world.store p.record with
    | error fault => simp only [hask]
    | ok request =>
      have hnests := h request ⟨d, hd, hask⟩
      simp only [hask]
      cases request with
      | emit _ | chart _ | set _ _ => rfl
      | enter _ | fillGrid _ _ | run _ => exact absurd trivial hnests

section Moments

variable {source : Source} {w : World φ} {levels : Nat} (hstandard : env.vocabulary = .standard)
  (hread : ∀ p, Reaches env source w p → ∀ text ∈ p.linesRead env, ¬ IsChartLine text)
include hstandard hread

theorem reads_history : (markupAccounting φ env).Reads env (history env levels source w) := by
  intro p hp text htext
  exact ⟨Call.oneLine_of_mem_linesRead htext,
    hread p (reaches_of_call_mem_history hstandard hp) text htext⟩

theorem Reaches.reads_acts {p : Call φ} (h : Reaches env source w p) (n : Nat) :
    (markupAccounting φ env).Reads env (acts env n p.record p.world) := by
  intro q hq text htext
  obtain ⟨c, hcarried, hcp⟩ := h
  have hreaches : Reaches env source w q :=
    ⟨c, hcarried, hcp.trans (reflTransGen_of_call_mem_acts hstandard hq)⟩
  exact ⟨Call.oneLine_of_mem_linesRead htext, hread q hreaches text htext⟩

variable (hstore : w.store.OneLine) (houtput : w.output = .unlimited)
  (hscript : ∀ l ∈ source.actLines, ¬ IsChartLine l.text)
include hstore houtput hscript

theorem covers_history (levels : Nat) :
    (markupAccounting φ env).Covers w.renew (history env levels source w)
      (run env levels source w).world := by
  have hlines : ∀ l ∈ source.actLines, (markupAccounting φ env).line l.text := fun l hl =>
    ⟨Source.oneLine_of_mem_lines (Source.mem_lines_of_mem_actLines hl), hscript l hl⟩
  have hstart : (markupAccounting φ env).state w.renew := by
    refine ⟨hstore, ?_⟩
    change w.output.room = none
    rw [houtput]
    rfl
  exact (sound_markupAccounting hstandard).accounts_run levels hlines w hstart
    (reads_history hstandard hread)

variable (hends : (compile env levels source w).1 ≠ .exhausted)
include hends

/-- A call of a run that ends finds variables and tokens without breaks, and whole lines of markup
in the output. -/
theorem Reaches.covers {p : Call φ} (h : Reaches env source w p) :
    (markupAccounting φ env).state p.world ∧ (markupAccounting φ env).record p.record ∧
      ∃ n, w.renew.WritesLines p.world n := by
  have hmem : .call p ∈ history env levels source w := by
    apply h.mem_history
    rw [compile, ne_eq, Outcome.verdict_eq_exhausted_iff, Bool.not_eq_true] at hends
    exact hends
  have hcovers := covers_history hstandard hread hstore houtput hscript levels
  obtain ⟨before, after, hsplit⟩ := List.append_of_mem hmem
  obtain ⟨hstate, hleads⟩ := hcovers.inner before _ after hsplit
  exact ⟨hstate, hcovers.record p hmem, _, hleads⟩

end Moments

/-- Let a run with the standard vocabulary begin with variables without line breaks and with an
empty output that takes everything, and let it end. If no line that is carried out is a chart, in
the script and in all that is read, then at every moment the variables hold no breaks and the output
is made of whole lines between angle brackets. Every record that is carried out has tokens without
breaks, and what it adds to the output are as many lines as the acts that it is made of have
elements. A record that nests nothing adds those of its own keyword, or none if it has a fault or is
no directive. -/
theorem output_whole_elements (hstandard : env.vocabulary = .standard) {source : Source}
    {w : World φ} (hstore : w.store.OneLine) (houtput : w.output = .unlimited) {levels : Nat}
    (hends : (compile env levels source w).1 ≠ .exhausted)
    (hscript : ∀ l ∈ source.actLines, ¬ IsChartLine l.text)
    (hread : ∀ p, Reaches env source w p → ∀ text ∈ p.linesRead env, ¬ IsChartLine text) :
    (∀ v, Moment env source w v → v.store.OneLine ∧
      ∃ lines, (∀ line ∈ lines, IsElementLine line) ∧
        v.output.bytes = (linesText lines).toUTF8) ∧
    ∀ p, Reaches env source w p → p.record.OneLine ∧
      (∀ n, p.world.WritesLines (dispatch env n p.record p.world).world
        ((acts env n p.record p.world).map (Act.elementCount env)).sum) ∧
      ((∀ request, p.Asks env request → ¬ request.IsNesting) → ∀ n,
        p.world.WritesLines (dispatch env (n + 1) p.record p.world).world
          ((Act.call p).elementCount env)) := by
  have hbytes {v : World φ} {n : Nat} (h : w.renew.WritesLines v n) :
      ∃ lines, (∀ line ∈ lines, IsElementLine line) ∧
        v.output.bytes = (linesText lines).toUTF8 := by
    obtain ⟨lines, hlines, -, hbytes⟩ := h
    have hempty : w.renew.output.bytes = ByteArray.empty := by
      change w.output.bytes = _
      rw [houtput]
      rfl
    refine ⟨lines, hlines, ?_⟩
    rw [hbytes, hempty]
    simp
  have hcovers {p : Call φ} (h : Reaches env source w p) :=
    h.covers hstandard hread hstore houtput hscript hends
  have hdispatch {p : Call φ} (h : Reaches env source w p) (n : Nat) :=
    (sound_markupAccounting hstandard).accounts_dispatch n (hcovers h).2.1 p.world (hcovers h).1
      (h.reads_acts hstandard hread n)
  constructor
  · intro v hv
    cases hv with
    | start => exact ⟨hstore, hbytes (.of_eq rfl)⟩
    | before hp =>
      obtain ⟨hstate, -, n, hlines⟩ := hcovers hp
      exact ⟨hstate.1, hbytes hlines⟩
    | after more hp =>
      obtain ⟨-, -, n, hlines⟩ := hcovers hp
      exact ⟨(hdispatch hp more).state.1, hbytes (hlines.trans (hdispatch hp more).leads)⟩
    | finish more =>
      have hrun := covers_history hstandard hread hstore houtput hscript more
      exact ⟨hrun.state.1, hbytes hrun.leads⟩
  · intro p hp
    refine ⟨(hcovers hp).2.1.1, fun n => (hdispatch hp n).leads, fun hnests n => ?_⟩
    have hlines := (hdispatch hp (n + 1)).leads
    rw [p.acts_eq_singleton hnests] at hlines
    simpa [markupAccounting] using hlines

end Files

/-! ## A script with a loop and a file -/

/-- A script that repeats a text, takes in a file, assigns to a variable and has a faulty line. -/
def slideScript : Source :=
  .ofText ("deck\nfor v = [\"a\" \"b\"]\ntext v 10 20 3\nefor\n" ++
    "include \"part\"\nw = 5\ncircle 1\nedeck\n")

/-- The state at the start, with a file that draws an arrow and a square. -/
def slideWorld : World MemoryFiles :=
  { bareWorld .empty with
    files := MemoryFiles.empty.write "part" "arrow 10 10 20 20\nsquare 5 5 5\n" }

theorem output_whole_elements_slide :
    (compile bareEnvironment 2 slideScript slideWorld).1 ≠ .exhausted ∧
    ∀ v, Moment bareEnvironment slideScript slideWorld v → v.store.OneLine ∧
      ∃ lines, (∀ line ∈ lines, IsElementLine line) ∧
        v.output.bytes = (linesText lines).toUTF8 := by
  have hends : (compile bareEnvironment 2 slideScript slideWorld).1 ≠ .exhausted := by
    decide +kernel
  refine ⟨hends, (output_whole_elements rfl ?_ rfl hends (by decide +kernel) ?_).1⟩
  · intro key value h
    cases h
  · have hcharts : (history bareEnvironment 2 slideScript slideWorld).all fun a => match a with
        | .call p => (p.linesRead bareEnvironment).all fun text => ¬ IsChartLine text
        | .loop _ _ _ | .data _ _ _ => true := by
      decide +kernel
    intro p hp text htext
    have hmem : .call p ∈ history bareEnvironment 2 slideScript slideWorld := by
      apply hp.mem_history
      rwa [compile, ne_eq, Outcome.verdict_eq_exhausted_iff, Bool.not_eq_true] at hends
    have hlines := List.all_eq_true.1 hcharts _ hmem
    simpa using List.all_eq_true.1 hlines text htext

end DeckScript
