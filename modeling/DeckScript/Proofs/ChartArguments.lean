import DeckScript.Proofs.LoopVariable
import DeckScript.Proofs.Nesting
import Mathlib.Data.List.TakeWhile

/-!
# The arguments of a chart

A chart runs a program with the words of its line as arguments. It takes the words from the text of
the line and not from the tokens, and looks up their variables when the line is carried out. The
tokens got the values of variables when the line was read, which for the body of a loop is when the
loop is entered, and the place in a grid is put into the tokens only. So the words and the tokens
agree on a line of a script or of a file, and elsewhere as long as nothing stands for the place or
has changed since the loop was entered.

## Main definitions

* `tokenCommand` — the command that the tokens of a line make
* `Record.CallsTokens` — the line runs the command that its tokens make
* `Steady` — a word of a line in a loop that still stands for what it stood for

## Main results

* `Record.callsTokens_of_tokens_eq` — a line whose words are its tokens runs what these make
* `callsTokens_of_fields_eq` — so do charts in a script, in a loop and in a grid
-/

namespace DeckScript

open Text

/-! ## Words put together -/

namespace Text

theorem fields_blank (s t : String) : fields (s ++ " " ++ t) = fields s ++ fields t := by
  have hlist : (s ++ " " ++ t).toList = s.toList ++ ' ' :: t.toList := by simp
  rw [fields, hlist, fieldChars_append_cons (by decide), List.map_append]
  rfl

theorem fields_intercalate (words : List String) :
    fields (" ".intercalate words) = words.flatMap fields := by
  induction words with
  | nil => simp [fields]
  | cons word rest ih =>
    cases rest with
    | nil => simp
    | cons next rest =>
      rw [String.intercalate_cons_cons, fields_blank, ih]
      rfl

theorem fieldChars_of_forall {s : List Char} (hne : s ≠ [])
    (h : ∀ c ∈ s, isWhiteSpace c = false) : fieldChars s = [s] := by
  cases s with
  | nil => exact absurd rfl hne
  | cons c rest =>
    have hrest : ∀ d ∈ rest, (!isWhiteSpace d) = true := fun d hd => by
      rw [h d (List.mem_cons_of_mem c hd)]
      rfl
    rw [fieldChars, h c List.mem_cons_self, if_neg (by simp), List.takeWhile_eq_self_iff.2 hrest,
      List.dropWhile_eq_nil_iff.2 hrest, fieldChars_nil]

/-- A word of a text is its own only word. -/
theorem fields_of_mem_fields {s word : String} (h : word ∈ fields s) : fields word = [word] := by
  obtain ⟨chars, hchars, rfl⟩ := List.mem_map.1 h
  obtain ⟨hne, hall⟩ := isWhiteSpace_eq_false_of_mem_fieldChars hchars
  rw [fields, String.toList_ofList, fieldChars_of_forall hne hall]
  rfl

/-- Words that are put together with blanks between them are the words of the text. -/
theorem fields_intercalate_of_forall {words : List String}
    (h : ∀ word ∈ words, fields word = [word]) : fields (" ".intercalate words) = words := by
  rw [fields_intercalate]
  induction words with
  | nil => rfl
  | cons word rest ih =>
    rw [List.flatMap_cons, h word List.mem_cons_self,
      ih fun w hw => h w (List.mem_cons_of_mem word hw)]
    rfl

end Text

/-! ## Commands -/

/-- The command that the tokens of a line make: without the double quotes around any but the first,
and split at white space again. -/
def tokenCommand : List String → List String
  | [] => []
  | program :: args => fields (" ".intercalate (program :: args.map Literal.bare))

theorem chartCommand_eq_tokenCommand (store : Store) (text : String) :
    chartCommand store.resolve text = tokenCommand (resolveArgs store (fields text)) := by
  rw [chartCommand]
  cases fields text with
  | nil => rfl
  | cons program words =>
    rw [resolveArgs, tokenCommand, List.map_map]
    rfl

/-- A keyword whose lines run a program. -/
def IsChartKeyword (keyword : String) : Prop := keyword = "chart" ∨ keyword = "dchart"

theorem get?_of_isChartKeyword {keyword : String} (h : IsChartKeyword keyword) :
    Vocabulary.standard.get? keyword = some Directive.chart := by
  rcases h with rfl | rfl <;> rfl

variable {φ : Type} [FileStore φ] {env : Environment}

/-- Carrying out the record runs the command that its tokens make. -/
def Record.CallsTokens (env : Environment) (r : Record) (w : World φ) : Prop :=
  ∀ n, dispatch env (n + 1) r w =
    (fulfil env (dispatch env n) r.line (.chart (tokenCommand r.tokens)) (announce env r w)).settle
      r.line

/-- A chart runs the command that its tokens make, if they are the words of its text with the
variables that are assigned when it is carried out. -/
theorem Record.callsTokens_of_tokens_eq (hstandard : env.vocabulary = .standard) {r : Record}
    {w : World φ} (hkeyword : IsChartKeyword r.keyword)
    (htokens : r.tokens = resolveArgs w.store (fields r.text)) : r.CallsTokens env w := by
  intro n
  have hask : Directive.chart.ask (announce env r w).store r =
      .ok (.chart (tokenCommand r.tokens)) := by
    rw [Call.announce_store, htokens, ← chartCommand_eq_tokenCommand]
    rfl
  rw [dispatch_succ, execute, hstandard, get?_of_isChartKeyword hkeyword]
  dsimp only
  rw [hask]

/-! ## Lines of a script -/

theorem callsTokens_record (hstandard : env.vocabulary = .standard) {l : SourceLine} {w : World φ}
    (hkeyword : IsChartKeyword (l.record w.store).keyword)
    (hfields : fields l.text = tokenize l.text) : (l.record w.store).CallsTokens env w := by
  apply Record.callsTokens_of_tokens_eq hstandard hkeyword
  rw [SourceLine.record, Record.ofLine, hfields]

/-! ## Lines in a loop -/

/-- A word of a line in a loop that stands in the state `now` for what it stood for when the loop
was entered: the placeholder, if it was not assigned then and the value that is put in is not
assigned now, or a word that has nothing to do with the placeholder and stands for the same as
then. -/
inductive Steady (entry now : Store) (placeholder value word : String) : Prop
  | placeholder : word = placeholder → entry.get? word = none → now.get? value = none →
    Steady entry now placeholder value word
  | other : word ≠ placeholder → entry.resolve word ≠ placeholder →
    now.resolve word = entry.resolve word → Steady entry now placeholder value word

theorem Steady.resolve {entry now : Store} {placeholder value word : String}
    (h : Steady entry now placeholder value word) :
    now.resolve (if word = placeholder then value else word) =
      if entry.resolve word = placeholder then value else entry.resolve word := by
  cases h with
  | placeholder hword hentry hnow =>
    rw [if_pos hword, Store.resolve_of_get?_eq_none hentry, if_pos hword,
      Store.resolve_of_get?_eq_none hnow]
  | other hword hentry hnow => rw [if_neg hword, if_neg hentry, hnow]

/-- The words of a line with a value put in, if the value is one word. -/
theorem fields_text_bind {r : Record} {placeholder value : String}
    (hvalue : placeholder ∈ fields r.text → fields value = [value]) :
    fields (r.bind placeholder value).text =
      (fields r.text).map fun word => if word = placeholder then value else word := by
  rw [Record.bind]
  dsimp only
  apply fields_intercalate_of_forall
  rw [List.forall_mem_map]
  intro word hword
  split
  · rename_i h
    exact hvalue (h ▸ hword)
  · exact fields_of_mem_fields hword

theorem callsTokens_bind (hstandard : env.vocabulary = .standard) {l : SourceLine} {entry : Store}
    {placeholder value : String} {u : World φ}
    (hkeyword : IsChartKeyword ((l.record entry).bind placeholder value).keyword)
    (hfields : fields l.text = tokenize l.text)
    (hvalue : placeholder ∈ tokenize l.text → fields value = [value])
    (hsteady : ∀ word ∈ (tokenize l.text).tail, Steady entry u.store placeholder value word) :
    ((l.record entry).bind placeholder value).CallsTokens env u := by
  apply Record.callsTokens_of_tokens_eq hstandard hkeyword
  have htext : fields ((l.record entry).bind placeholder value).text =
      (tokenize l.text).map fun word => if word = placeholder then value else word := by
    rw [fields_text_bind (hfields ▸ hvalue)]
    exact congrArg _ hfields
  rw [htext, Record.bind, SourceLine.record, Record.ofLine]
  dsimp only
  cases htokens : tokenize l.text with
  | nil => rfl
  | cons first others =>
    rw [htokens] at hsteady
    rw [resolveArgs, List.map_cons, List.map_cons, resolveArgs, List.map_map, List.map_map]
    congr 1
    exact List.map_congr_left fun word hword => (hsteady word hword).resolve.symm

/-! ## Lines of a grid -/

theorem coordinate_of_ne {c : Grid.Cursor} {token : String} (hx : token ≠ "x") (hy : token ≠ "y") :
    c.coordinate token = token := by
  rw [Grid.Cursor.coordinate, if_neg hx, if_neg hy]

theorem callsTokens_cell (hstandard : env.vocabulary = .standard) {c : Grid.Cursor} {line : Nat}
    {text : String} {w : World φ} (hkeyword : IsChartKeyword (c.cell w.store line text).keyword)
    (hfields : fields text = tokenize text) (hx : "x" ∉ resolveArgs w.store (tokenize text))
    (hy : "y" ∉ resolveArgs w.store (tokenize text)) :
    (c.cell w.store line text).CallsTokens env w := by
  apply Record.callsTokens_of_tokens_eq hstandard hkeyword
  rw [Grid.Cursor.cell, Record.ofLine]
  dsimp only
  rw [hfields]
  -- The place is put into none of the tokens.
  conv_rhs => rw [← List.map_id (resolveArgs w.store (tokenize text))]
  refine List.map_congr_left fun token htoken => ?_
  exact coordinate_of_ne (ne_of_mem_of_not_mem htoken hx) (ne_of_mem_of_not_mem htoken hy)

/-! ## All charts -/

/-- Let the words of a line be its tokens, and let the line be a chart. In a script and in a file it
runs the command that its tokens make. In a loop it does so in every state in which each of its
words still stands for what it stood for when the loop was entered, if the value that is put in is
one word. In a grid it does so if no token stands for a coordinate. -/
theorem callsTokens_of_fields_eq (hstandard : env.vocabulary = .standard) :
    (∀ (l : SourceLine) (w : World φ), fields l.text = tokenize l.text →
      IsChartKeyword (l.record w.store).keyword → (l.record w.store).CallsTokens env w) ∧
    (∀ (l : SourceLine) (entry : Store) (placeholder value : String) (u : World φ),
      fields l.text = tokenize l.text →
      IsChartKeyword ((l.record entry).bind placeholder value).keyword →
      (placeholder ∈ tokenize l.text → fields value = [value]) →
      (∀ word ∈ (tokenize l.text).tail, Steady entry u.store placeholder value word) →
      ((l.record entry).bind placeholder value).CallsTokens env u) ∧
    ∀ (c : Grid.Cursor) (line : Nat) (text : String) (w : World φ),
      fields text = tokenize text → IsChartKeyword (c.cell w.store line text).keyword →
      "x" ∉ resolveArgs w.store (tokenize text) → "y" ∉ resolveArgs w.store (tokenize text) →
      (c.cell w.store line text).CallsTokens env w := by
  refine ⟨?_, ?_, ?_⟩
  · intro l w hfields hkeyword
    exact callsTokens_record hstandard hkeyword hfields
  · intro l entry placeholder value u hfields hkeyword hvalue hsteady
    exact callsTokens_bind hstandard hkeyword hfields hvalue hsteady
  · intro c line text w hfields hkeyword hx hy
    exact callsTokens_cell hstandard hkeyword hfields hx hy

theorem callsTokens_chart :
    (SourceLine.record ⟨1, "chart v data"⟩ (assignedTo "7")).CallsTokens bareEnvironment
      (bareWorld (assignedTo "7")) ∧
    ((SourceLine.record ⟨2, "chart v data"⟩ .empty).bind "v" "1").CallsTokens bareEnvironment
      (bareWorld .empty) ∧
    ((⟨10, 80⟩ : Grid.Cursor).cell .empty 1 "chart 5 data").CallsTokens bareEnvironment
      (bareWorld .empty) := by
  have hstandard : bareEnvironment.vocabulary = .standard := rfl
  refine ⟨?_, ?_, ?_⟩
  · exact (callsTokens_of_fields_eq hstandard).1 ⟨1, "chart v data"⟩ (bareWorld (assignedTo "7"))
      (by decide +kernel) (.inl (by decide +kernel))
  · have hsteady : ∀ word ∈ (tokenize "chart v data").tail,
        Steady .empty .empty "v" "1" word := by
      rw [show tokenize "chart v data" = ["chart", "v", "data"] by decide +kernel]
      intro word hword
      rcases List.mem_cons.1 hword with rfl | hword
      · exact .placeholder rfl rfl rfl
      · obtain rfl := List.mem_singleton.1 hword
        exact .other (by decide) (by decide) rfl
    exact (callsTokens_of_fields_eq hstandard).2.1 ⟨2, "chart v data"⟩ .empty "v" "1"
      (bareWorld .empty) (by decide +kernel) (.inl (by decide +kernel)) (fun _ => by decide +kernel)
      hsteady
  · exact (callsTokens_of_fields_eq hstandard).2.2 ⟨10, 80⟩ 1 "chart 5 data" (bareWorld .empty)
      (by decide +kernel) (.inl (by decide +kernel)) (by decide +kernel) (by decide +kernel)

/-- A grid does not put its place into the command of a chart, and a loop looks up a variable again
that is assigned in it. -/
theorem called_differs_from_tokens :
    let cell := (⟨10, 80⟩ : Grid.Cursor).cell .empty 1 "chart x y"
    let line : SourceLine := ⟨3, "chart v data"⟩
    fields "chart x y" = tokenize "chart x y" ∧ cell.keyword = "chart" ∧
      tokenCommand cell.tokens = ["chart", "10", "80"] ∧
      (dispatch bareEnvironment 1 cell (bareWorld .empty)).world.journal =
        [.called ["chart", "x", "y"]] ∧
      fields line.text = tokenize line.text ∧
      tokenCommand ((line.record (assignedTo "5")).bind "i" "1").tokens = ["chart", "5", "data"] ∧
      (runBlock (dispatch bareEnvironment 1)
        (.loop ⟨1, "for i = 1 1"⟩ [⟨2, "v = 6"⟩, line])
        (bareWorld (assignedTo "5"))).world.journal = [.called ["chart", "6", "data"]] := by
  decide +kernel

end DeckScript
