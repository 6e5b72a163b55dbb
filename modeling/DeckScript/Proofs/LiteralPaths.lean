import DeckScript.Proofs.DisplayedText
import DeckScript.Proofs.ReckoningRun

/-!
# Literals on their way to a text

A literal can reach the text of a line in three ways: it stands on the line, a variable holds it, or
a loop over a list puts it in. A variable takes it over with its delimiters, however often it is
copied from one variable to the next, so the first two ways show the same text. A loop puts its
items between double quotes, and an item that has them already is left as it is. The other two
delimiters are not looked for: a literal between them gains a second pair of delimiters in the loop,
and then its own ones are shown as part of the text.

## Main definitions

* `IsVariable` — a name that a line can assign to
* `Copies` — lines that assign a token to a variable and copy it on

## Main results

* `Copies.exists_runBlocks` — the last variable holds the token as it is written
* `runBlock_listLoop` — the records that a loop over a list carries out
* `literal_reaches_text` — the text that a line shows for a literal, in each of the three ways
-/

namespace DeckScript

open Markup Lexeme

/-! ## Literals as items -/

theorem Lexeme.IsClosedLiteral.isPaired {s : List Char} (h : IsClosedLiteral s) :
    ∃ inside, IsPaired s inside := by
  cases h with
  | @quoted q body hq _ => exact ⟨body, q, .inl hq, rfl⟩
  | @raw body _ => exact ⟨body, backquote, .inr rfl, rfl⟩

/-- A literal that is closed is its inside with a delimiter on both sides, and shows its inside. -/
theorem Lexeme.IsClosedLiteral.shown_eq {token : String} (h : IsClosedLiteral token.toList) :
    IsPaired token.toList (Literal.inner token).toList ∧
      shown token = escape (Literal.inner token) := by
  obtain ⟨inside, hpair⟩ := h.isPaired
  have hinner : (Literal.inner token).toList = inside := by
    rw [Literal.inner, String.toList_ofList, hpair.dropLast_drop]
  exact ⟨hinner.symm ▸ hpair, Markup.shown_eq token⟩

/-- An item is shown without the double quotes around it, if it has them, and else as it is. -/
theorem shown_requote (item : String) :
    shown (Literal.requote item) =
      escape (if 2 ≤ item.utf8ByteSize ∧ Literal.isEnclosed item then Literal.inner item
        else item) := by
  rw [shown_eq, Literal.requote]
  exact congrArg escape (inner_quotedName _)

theorem shown_requote_of_isPaired {item : String} {inside : List Char}
    (h : IsPaired item.toList inside) :
    shown (Literal.requote item) =
      escape (if Literal.opens item then Literal.inner item else item) := by
  obtain ⟨d, -, hchars⟩ := h
  have hsize : 2 ≤ item.utf8ByteSize := by
    have hlength := length_le_utf8ByteSize item.toList
    rw [String.ofList_toList, hchars, List.length_cons, List.length_append,
      List.length_singleton] at hlength
    omega
  -- The same delimiter stands at both ends.
  have hcloses : Literal.closes item = Literal.opens item := by
    rw [Literal.opens, Literal.closes, hchars, ← List.cons_append, List.getLast?_concat]
    rfl
  simp only [shown_requote, hsize, Literal.isEnclosed, hcloses, Bool.and_self, true_and]

variable {φ : Type}

/-! ## Variables that hold the literal -/

/-- A name that a line can assign to: an identifier with no other meaning in front of a line. -/
structure IsVariable (name : String) : Prop where
  isIdentifier : IsIdentifier name
  notKeyword : Vocabulary.standard.get? name = none
  ne_for : name ≠ "for"
  ne_data : name ≠ "data"

/-- Lines that assign a token to a variable and copy it from one variable to the next, the last of
which is `a`. -/
inductive Copies (token : String) : List SourceLine → String → Prop
  | assign {l : SourceLine} {a : String} : tokenize l.text = [a, "=", token] → IsVariable a →
    Copies token [l] a
  | copy {ls : List SourceLine} {l : SourceLine} {a b : String} : Copies token ls a →
    tokenize l.text = [b, "=", a] → IsVariable b → Copies token (ls ++ [l]) b

/-- A line that begins with an identifier is no comment. -/
theorem IsIdentifier.keyword? {word : String} (h : IsIdentifier word) {l : SourceLine}
    {rest : List String} (hl : tokenize l.text = word :: rest) : l.keyword? = some word := by
  rw [SourceLine.keyword?, if_neg, hl]
  · rfl
  · intro hcomment
    obtain ⟨cs, hcs⟩ := List.head?_eq_some_iff.1 hcomment
    obtain ⟨c, word', hword, hc, -⟩ := h
    rw [tokenize_eq_map_tokenChars, hcs, Reckoning.tokenChars_comment, List.map_cons] at hl
    have hfirst := congrArg String.toList (List.cons.inj hl).1
    rw [String.toList_ofList, hword] at hfirst
    obtain ⟨rfl, -⟩ := List.cons.inj hfirst
    exact absurd hc (by decide +kernel)

theorem Copies.keyword? {token a : String} {ls : List SourceLine} (h : Copies token ls a) :
    ∀ l ∈ ls, ∃ keyword, l.keyword? = some keyword ∧ keyword ≠ "for" ∧ keyword ≠ "data" := by
  have hline {l : SourceLine} {b source : String} (hl : tokenize l.text = [b, "=", source])
      (hb : IsVariable b) :
      ∃ keyword, l.keyword? = some keyword ∧ keyword ≠ "for" ∧ keyword ≠ "data" :=
    ⟨b, hb.isIdentifier.keyword? hl, hb.ne_for, hb.ne_data⟩
  induction h with
  | assign hl ha => exact List.forall_mem_singleton.2 (hline hl ha)
  | copy _ hl hb ih =>
    exact List.forall_mem_append.2 ⟨ih, List.forall_mem_singleton.2 (hline hl hb)⟩

section Assignments

variable [FileStore φ] {env : Environment} {w : World φ}

/-- A line that assigns a single token gives the variable what the token stands for. -/
theorem dispatch_assignment (hstandard : env.vocabulary = .standard) {l : SourceLine}
    {a source : String} (hl : tokenize l.text = [a, "=", source]) (ha : IsVariable a)
    (hequals : w.store.get? "=" = none) (n : Nat) :
    dispatch env (n + 1) (l.record w.store) w =
      .finished { announce env (l.record w.store) w with
        store := w.store.insert a (w.store.resolve source) } := by
  have htokens : (l.record w.store).tokens = [a, "=", w.store.resolve source] := by
    rw [SourceLine.tokens_record hl, List.map_cons, List.map_singleton,
      Store.resolve_of_get?_eq_none hequals]
  generalize l.record w.store = r at htokens
  have hlength : r.length = 3 := by rw [Record.length, htokens]; rfl
  have hkeyword : r.keyword = a := by rw [Record.keyword, Record.arg, htokens]; rfl
  have hassigns : r.isAssignment := by
    rw [Record.isAssignment, hlength, Record.arg, htokens]
    rfl
  have hvalue : r.arg 2 = w.store.resolve source := by rw [Record.arg, htokens]; rfl
  rw [dispatch_succ, execute, hstandard, hkeyword, ha.notKeyword]
  simp only [runAssignment, hassigns, if_true, assign, assignedValue, hlength, Except.map, hvalue,
    hkeyword, Call.announce_store]
  rfl

/-- The last variable holds the token as it is written, and nothing but the variables and the
journal changes. -/
theorem Copies.exists_runBlocks (hstandard : env.vocabulary = .standard) {token a : String}
    {ls : List SourceLine} (h : Copies token ls a) (htoken : w.store.get? token = none)
    (hequals : w.store.get? "=" = none) (n : Nat) :
    ∃ u, runBlocks (dispatch env (n + 1)) (ls.map .directive) w = .finished u ∧
      u = { w with store := u.store, journal := u.journal } ∧ u.store.get? a = some token ∧
      u.store.get? "=" = none := by
  have hannounce (r : Record) (v : World φ) (store : Store) :
      { announce env r v with store } =
        { v with store, journal := (announce env r v).journal } := by
    obtain ⟨events, hasked⟩ := v.onlyAsked_announce env r
    rw [hasked]
  -- Each copy finds the token in the variable of the line in front of it.
  induction h with
  | @assign l a hl ha =>
    refine ⟨_, (Outcome.andThen_finished _).trans (dispatch_assignment hstandard hl ha hequals n),
      hannounce _ _ _, ?_, ?_⟩
    · rw [Store.resolve_of_get?_eq_none htoken]
      exact Table.get?_insert_self ..
    · exact (Table.get?_insert_of_ne _ _ ha.isIdentifier.ne_equals.symm).trans hequals
  | @copy ls l a b _ hl hb ih =>
    obtain ⟨v, hrun, hv, hvalue, hsign⟩ := ih
    rw [List.map_append, runBlocks_append, hrun, Outcome.finished_andThen]
    refine ⟨_, (Outcome.andThen_finished _).trans (dispatch_assignment hstandard hl hb hsign n),
      ?_, ?_, ?_⟩
    · rw [hannounce, hv]
    · rw [Store.resolve_of_get? hvalue]
      exact Table.get?_insert_self ..
    · exact (Table.get?_insert_of_ne _ _ hb.isIdentifier.ne_equals.symm).trans hsign

end Assignments

/-! ## Loops over a list -/

theorem Loop.Header.ofRecord_list {r : Record} {placeholder : String} {items : List String}
    (hr : r.tokens = "for" :: placeholder :: "=" :: "[" :: (items ++ ["]"])) :
    ofRecord r = .ok ⟨placeholder, .items items⟩ := by
  have hlength : r.length = items.length + 5 := by
    rw [Record.length, hr]
    simp
  have hname : r.arg 1 = placeholder := by rw [Record.arg, hr]; rfl
  have hsign : r.arg 2 = "=" := by rw [Record.arg, hr]; rfl
  have hopen : r.arg 3 = "[" := by rw [Record.arg, hr]; rfl
  have hclose : r.arg (r.length - 1) = "]" := by
    rw [hlength, Record.arg, hr, Nat.add_sub_assoc (by decide)]
    simp
  have hitems : listItems r = items := by
    rw [listItems, Record.argsFrom, hr]
    exact List.dropLast_concat
  have hsource : Source.ofRecord r = .ok (.items items) := by
    rw [Source.ofRecord, hopen, hclose, if_pos ⟨rfl, rfl⟩, hitems]
  rw [ofRecord, hsign, hlength, if_neg (by simp), hsource, hname]
  rfl

section Loops

variable [FileStore φ] {w : World φ} {header : SourceLine} {v : String} {items : List String}

/-- A loop over a list carries out its body once for each item, with the item between double quotes
in place of the variable. -/
theorem runBlock_listLoop (hheader : tokenize header.text =
      "for" :: v :: "=" :: "[" :: (items ++ ["]"]))
    (hmarks : ∀ token ∈ ["=", "[", "]", v], w.store.get? token = none)
    (exec : Record → Step φ) (body : List SourceLine) :
    runBlock exec (.loop header body) w =
      runRecords exec (items.flatMap fun item => body.map fun l =>
        (l.record w.store).bind v (Literal.requote (w.store.resolve item))) w := by
  simp only [List.forall_mem_cons, List.not_mem_nil, false_implies, implies_true, and_true]
    at hmarks
  obtain ⟨hequals, hopen, hclose, hv⟩ := hmarks
  have htokens : (header.record w.store).tokens =
      "for" :: v :: "=" :: "[" :: (items.map w.store.resolve ++ ["]"]) := by
    rw [SourceLine.tokens_record hheader]
    simp only [List.map_cons, List.map_append, List.map_nil,
      Store.resolve_of_get?_eq_none hequals, Store.resolve_of_get?_eq_none hopen,
      Store.resolve_of_get?_eq_none hclose, Store.resolve_of_get?_eq_none hv]
  have hrecords : loopRecords header body w = (w, .ok (items.flatMap fun item =>
      body.map fun l => (l.record w.store).bind v (Literal.requote (w.store.resolve item)))) := by
    rw [loopRecords, Loop.Header.ofRecord_list htokens]
    simp only [Loop.Source.values, List.flatMap_map, List.map_map]
    rfl
  rw [runBlock, runLoop_eq, hrecords, Attempt.settle_outcome]

end Loops

/-- A repetition sees the value in place of the variable. -/
theorem tokens_bind_variable {l : SourceLine} {store : Store} {keyword v : String}
    {others : List String} (hl : tokenize l.text = keyword :: v :: others)
    (hv : store.get? v = none) (hne : v ≠ keyword) (value : String) :
    ((l.record store).bind v value).tokens = keyword :: value ::
      others.map fun token => if store.resolve token = v then value else store.resolve token := by
  rw [Record.bind, SourceLine.tokens_record hl]
  simp only [List.map_cons, Store.resolve_of_get?_eq_none hv, if_neg hne.symm, if_true,
    List.map_map]
  rfl

/-! ## The three ways -/

/-- Let a closed literal be the text of a line, with neither the literal nor the equals sign
assigned. The line shows what stands between the delimiters if the literal stands on the line, and
also if lines in front of it assign it to a variable and copy it through others. If the literal is
an item of a loop, whose brackets and variable are not assigned either, the line shows the same if
and only if the delimiters are double quotes. Else it shows the whole literal, with its delimiters.
-/
theorem literal_reaches_text [FileStore φ] {env : Environment}
    (hstandard : env.vocabulary = .standard) {keyword : String} (hkeyword : keyword ∈ textKeywords)
    {literal : String} (hliteral : IsClosedLiteral literal.toList) :
    IsPaired literal.toList (Literal.inner literal).toList ∧
    ∃ frame : List String → Except Fault TextFrame,
      (∀ others, (∃ f, frame others = .ok f) ↔ TextArguments keyword others) ∧
      ∀ {w : World φ}, w.store.get? literal = none →
        (∀ (l : SourceLine) others, tokenize l.text = keyword :: literal :: others →
          (l.record w.store).Shows φ env frame (escape (Literal.inner literal))) ∧
        (w.store.get? "=" = none → ∀ ls a, Copies literal ls a →
          Block.split none ls = (ls.map .directive, none) ∧
          ∀ n, ∃ u, runBlocks (dispatch env (n + 1)) (ls.map .directive) w = .finished u ∧
            u = { w with store := u.store, journal := u.journal } ∧
            ∀ (l : SourceLine) others, tokenize l.text = keyword :: a :: others →
              (l.record u.store).Shows φ env frame (escape (Literal.inner literal))) ∧
        ∀ (header : SourceLine) v items (body : List SourceLine), v ≠ keyword →
          (∀ token ∈ ["=", "[", "]", v], w.store.get? token = none) →
          tokenize header.text = "for" :: v :: "=" :: "[" :: (items ++ ["]"]) →
          let repetition := fun (item : String) (l : SourceLine) =>
            (l.record w.store).bind v (Literal.requote (w.store.resolve item))
          (∀ exec, runBlock exec (.loop header body) w =
            runRecords exec (items.flatMap fun item => body.map (repetition item)) w) ∧
          ∀ l others, tokenize l.text = keyword :: v :: others →
            ∃ content, (repetition literal l).Shows φ env frame content ∧
              (content = escape (Literal.inner literal) ↔ Literal.opens literal) ∧
              (¬ Literal.opens literal → content = escape literal) := by
  obtain ⟨hpair, hshown⟩ := hliteral.shown_eq
  obtain ⟨frame, hframe⟩ := exists_framesText (φ := φ) hstandard hkeyword
  refine ⟨hpair, frame, hframe.exists_iff, fun {w} hnone => ⟨?_, ?_, ?_⟩⟩
  · -- On the line.
    intro l others hl
    have htokens : (l.record w.store).tokens =
        keyword :: literal :: others.map w.store.resolve := by
      rw [SourceLine.tokens_record hl, List.map_cons, Store.resolve_of_get?_eq_none hnone]
    rw [← hshown]
    exact hframe.shows _ _ _ htokens
  · -- Through variables: the last one is read as the token.
    intro hequals ls a hcopies
    refine ⟨Block.split_directives hcopies.keyword?, fun n => ?_⟩
    obtain ⟨u, hrun, hu, hvalue, -⟩ := hcopies.exists_runBlocks hstandard hnone hequals n
    refine ⟨u, hrun, hu, fun l others hl => ?_⟩
    have htokens : (l.record u.store).tokens =
        keyword :: literal :: others.map u.store.resolve := by
      rw [SourceLine.tokens_record hl, List.map_cons, Store.resolve_of_get? hvalue]
    rw [← hshown]
    exact hframe.shows _ _ _ htokens
  · -- In a loop: the text is the item between double quotes.
    intro header v items body hne hmarks hheader repetition
    refine ⟨fun exec => runBlock_listLoop hheader hmarks exec body, fun l others hl => ?_⟩
    have hv : w.store.get? v = none := hmarks v (by simp)
    refine ⟨_, hframe.shows _ _ _ (tokens_bind_variable hl hv hne _), ?_⟩
    rw [Store.resolve_of_get?_eq_none hnone, shown_requote_of_isPaired hpair,
      escape_injective.eq_iff, escape_injective.eq_iff]
    -- The whole literal is longer than what stands between its delimiters.
    have hlonger : literal ≠ Literal.inner literal := by
      obtain ⟨d, -, hchars⟩ := hpair
      intro heq
      have hlength := congrArg List.length hchars
      rw [← heq, List.length_cons, List.length_append] at hlength
      omega
    by_cases hopens : Literal.opens literal
    · simp [hopens]
    · simp [hopens, hlonger]

/-- The lines that take an apostrophe literal through two variables. -/
theorem copies_apostrophes :
    Copies "'a<b'" [⟨1, "x = 'a<b'"⟩, ⟨2, "y = x"⟩] "y" := by
  have hx : IsVariable "x" :=
    ⟨isIdentifier_of_isLower rfl (by decide), by decide +kernel, by decide, by decide⟩
  have hy : IsVariable "y" :=
    ⟨isIdentifier_of_isLower rfl (by decide), by decide +kernel, by decide, by decide⟩
  have hfirst : Copies "'a<b'" [⟨1, "x = 'a<b'"⟩] "x" := .assign (by decide +kernel) hx
  exact .copy hfirst (by decide +kernel) hy

theorem literal_reaches_text_apostrophes :
    let w : World MemoryFiles := bareWorld .empty
    let lines : List SourceLine := [⟨1, "x = 'a<b'"⟩, ⟨2, "y = x"⟩]
    bareEnvironment.vocabulary = .standard ∧ "li" ∈ textKeywords ∧
      IsClosedLiteral "'a<b'".toList ∧ w.store.get? "'a<b'" = none ∧ w.store.get? "=" = none ∧
      Copies "'a<b'" lines "y" ∧
      ∃ frame : List String → Except Fault TextFrame,
        (SourceLine.record ⟨3, "li 'a<b'"⟩ .empty).Shows MemoryFiles bareEnvironment frame
          "a&lt;b" ∧
        (∃ u, runBlocks (dispatch bareEnvironment 1) (lines.map .directive) w = .finished u ∧
          (SourceLine.record ⟨3, "li y"⟩ u.store).Shows MemoryFiles bareEnvironment frame
            "a&lt;b") ∧
        Record.Shows MemoryFiles bareEnvironment frame
          ⟨3, ["li", "\"'a<b'\""], "li \"'a<b'\""⟩ "'a&lt;b'" := by
  intro w lines
  have hstandard : bareEnvironment.vocabulary = .standard := rfl
  have hkeyword : "li" ∈ textKeywords := by decide
  have hinside : IsEscaped '\'' "a<b".toList := isEscaped_of_all (by decide)
  have hliteral : IsClosedLiteral "'a<b'".toList := .quoted (.inr rfl) hinside
  have hcopies : Copies "'a<b'" lines "y" := copies_apostrophes
  obtain ⟨-, frame, -, hways⟩ :=
    literal_reaches_text (φ := MemoryFiles) hstandard hkeyword hliteral
  obtain ⟨hwritten, hstored, hlooped⟩ := hways (w := w) rfl
  obtain ⟨-, hruns⟩ := hstored rfl lines "y" hcopies
  obtain ⟨u, hrun, -, hlast⟩ := hruns 0
  obtain ⟨-, hrepeated⟩ := hlooped ⟨1, "for v = ['a<b']"⟩ "v" ["'a<b'"] [⟨3, "li v"⟩] (by decide)
    (by decide) (by decide +kernel)
  obtain ⟨content, hcontent, -, hwhole⟩ := hrepeated ⟨3, "li v"⟩ [] (by decide +kernel)
  have hinner : escape (Literal.inner "'a<b'") = "a&lt;b" := by decide
  have hescape : escape "'a<b'" = "'a&lt;b'" := by decide
  have hrecord : (SourceLine.record ⟨3, "li v"⟩ w.store).bind "v"
      (Literal.requote (w.store.resolve "'a<b'")) =
        ⟨3, ["li", "\"'a<b'\""], "li \"'a<b'\""⟩ := by decide +kernel
  rw [hwhole (by decide), hescape] at hcontent
  rw [hinner] at hwritten hlast
  have honLine := hwritten ⟨3, "li 'a<b'"⟩ [] (by decide +kernel)
  have hcopied := hlast ⟨3, "li y"⟩ [] (by decide +kernel)
  exact ⟨hstandard, hkeyword, hliteral, rfl, rfl, hcopies, frame, honLine, ⟨u, hrun, hcopied⟩,
    hrecord ▸ hcontent⟩

/-- Between apostrophes and between backquotes a literal shows its inside on a line and through
variables, and shows its delimiters as well if a loop puts it in. -/
theorem looped_literal_shows_delimiters :
    let drawn := fun text =>
      (compile bareEnvironment 1 (.ofText text) (bareWorld .empty)).2.output.text
    IsClosedLiteral "'abc'".toList ∧ drawn "li 'abc'\n" = "<li>abc</li>\n" ∧
      drawn "a = 'abc'\nb = a\nli b\n" = "<li>abc</li>\n" ∧
      drawn "for v = ['abc']\nli v\nefor\n" = "<li>'abc'</li>\n" ∧
      drawn "for v = [\x60abc\x60]\nli v\nefor\n" = "<li>\x60abc\x60</li>\n" := by
  intro drawn
  have hinside : IsEscaped '\'' "abc".toList := isEscaped_of_all (by decide)
  have hliteral : IsClosedLiteral "'abc'".toList := .quoted (.inr rfl) hinside
  exact ⟨hliteral, by decide +kernel, by decide +kernel, by decide +kernel, by decide +kernel⟩

end DeckScript
