import DeckScript.Proofs.Frames

/-!
# Texts on a single line

Lines are what is left when a text is cut at its breaks, and no byte but the break itself is read as
one. So a line holds no break, nor does a token of it, nor what is put in its place: numbers are
written with digits and a few signs, and the values of variables and of loops come from tokens and
lines themselves.

## Main definitions

* `OneLine` — a text without a line break
* `Store.OneLine`, `Record.OneLine` — the values of variables, and the tokens of a record, are such

## Main results

* `Text.Utf8.oneLine_decode` — only the break itself is read as a break
* `Source.oneLine_of_mem_lines` — the lines of a script
* `Number.oneLine_text` — the texts of numbers
* `oneLine_of_mem_loopRecords`, `Grid.Cursor.oneLine_cell` — the records of loops and grids
* `oneLine_runAssignment` — the variables after an assignment
-/

namespace DeckScript

/-- The text holds no line break. -/
def OneLine (s : String) : Prop := '\n' ∉ s.toList

instance : DecidablePred OneLine := fun s => inferInstanceAs (Decidable ('\n' ∉ s.toList))

@[simp] theorem oneLine_ofList {cs : List Char} : OneLine (String.ofList cs) ↔ '\n' ∉ cs := by
  rw [OneLine, String.toList_ofList]

@[simp] theorem oneLine_append {s t : String} : OneLine (s ++ t) ↔ OneLine s ∧ OneLine t := by
  simp [OneLine, not_or]

theorem oneLine_intercalate {sep : String} (hsep : OneLine sep) {ss : List String}
    (hss : ∀ s ∈ ss, OneLine s) : OneLine (sep.intercalate ss) := by
  induction ss with
  | nil =>
    rw [String.intercalate_nil]
    decide
  | cons s rest ih =>
    cases rest with
    | nil => simpa using hss s List.mem_cons_self
    | cons t rest =>
      have hrest := ih fun u hu => hss u (List.mem_cons_of_mem s hu)
      rw [String.intercalate_cons_cons, oneLine_append, oneLine_append]
      exact ⟨⟨hss s List.mem_cons_self, hsep⟩, hrest⟩

/-! ## Lines -/

namespace Text

section Cut

variable {α : Type} [DecidableEq α] {brk ret : α}

theorem notMem_breakLines (s : List α) :
    (∀ l ∈ (breakLines brk s).1, brk ∉ l) ∧ brk ∉ (breakLines brk s).2 := by
  have hbefore (t : List α) : brk ∉ t.takeWhile fun c => decide (c ≠ brk) := by
    intro h
    simpa using List.all_eq_true.1 List.all_takeWhile brk h
  -- The cut goes on behind the first break.
  induction hlength : s.length using Nat.strongRecOn generalizing s with
  | ind n ih =>
    rw [breakLines]
    split
    · rename_i hdrop
      refine ⟨by simp, ?_⟩
      have hall := List.takeWhile_append_dropWhile (p := fun c => decide (c ≠ brk)) (l := s)
      rw [hdrop, List.append_nil] at hall
      exact hall ▸ hbefore s
    · rename_i c rest hdrop
      have hshort : rest.length < n := by
        have hle := (List.dropWhile_sublist (fun c => decide (c ≠ brk)) (l := s)).length_le
        rw [hdrop, List.length_cons] at hle
        omega
      obtain ⟨hlines, htail⟩ := ih _ hshort rest rfl
      refine ⟨?_, htail⟩
      intro l hl
      rcases List.mem_cons.1 hl with rfl | hl
      · exact hbefore s
      · exact hlines l hl

/-- No line holds the break. -/
theorem notMem_of_mem_closedLines {s l : List α} (h : l ∈ closedLines brk ret s) : brk ∉ l := by
  obtain ⟨piece, hpiece, rfl⟩ := List.mem_map.1 h
  have hclean := (notMem_breakLines s).1 piece hpiece
  rw [dropReturn]
  split
  · exact fun hmem => hclean ((List.dropLast_sublist piece).subset hmem)
  · exact hclean

theorem notMem_of_mem_allLines {s l : List α} (h : l ∈ allLines brk ret s) : brk ∉ l := by
  rw [allLines, List.mem_append] at h
  rcases h with h | h
  · exact notMem_of_mem_closedLines h
  · split at h
    · cases h
    · obtain rfl := List.mem_singleton.1 h
      exact (notMem_breakLines s).2

end Cut

theorem oneLine_of_mem_lines {s l : String} (h : l ∈ lines s) : OneLine l := by
  obtain ⟨cs, hcs, rfl⟩ := List.mem_map.1 h
  rw [oneLine_ofList]
  exact notMem_of_mem_allLines hcs

namespace Utf8

/-- A code point is at least what its first two bytes make of it. -/
theorem le_of_extend_eq_some {low high : UInt8} {value n k : Nat} {s rest : List UInt8}
    (h : extend low high value (n + 1) s = (some k, rest)) :
    value * 64 + (low.toNat - 0x80) ≤ k := by
  induction n generalizing low high value s with
  | zero =>
    cases s with
    | nil => cases h
    | cons b s =>
      rw [extend] at h
      split at h
      · rename_i hb
        -- The byte is added to what was there, and it is not below its bound.
        simp only [extend, Prod.mk.injEq, Option.some.injEq] at h
        have hlow : low.toNat ≤ b.toNat := hb.1
        omega
      · cases h
  | succ n ih =>
    cases s with
    | nil => cases h
    | cons b s =>
      rw [extend] at h
      split at h
      · rename_i hb
        have hlow : low.toNat ≤ b.toNat := hb.1
        have hrest := ih h
        omega
      · cases h

theorem suffix_extend (low high : UInt8) (value n : Nat) (s : List UInt8) :
    (extend low high value n s).2 <:+ s := by
  induction n generalizing low high value s with
  | zero => exact List.suffix_rfl
  | succ n ih =>
    cases s with
    | nil => exact List.suffix_rfl
    | cons c s =>
      rw [extend]
      split
      · exact (ih ..).trans (List.suffix_cons c s)
      · exact List.suffix_rfl

/-- What is left behind a character is the end of what was there. -/
theorem suffix_next (b : UInt8) (rest : List UInt8) : (next b rest).2 <:+ rest := by
  rw [next]
  cases lead? b with
  | none => exact List.suffix_rfl
  | some l =>
    dsimp only
    have hextend := suffix_extend l.low l.high l.value l.following rest
    split <;> rename_i hcase <;> (rw [hcase] at hextend; exact hextend)

/-- A first byte says all, or it announces a code point beyond the control characters. -/
theorem lead?_bounds {b : UInt8} {l : Lead} (h : lead? b = some l) :
    (l.following = 0 ∧ l.value = b.toNat) ∨
      ∃ n, l.following = n + 1 ∧ 16 ≤ l.value * 64 + (l.low.toNat - 0x80) := by
  have hle {x : UInt8} (hx : ¬ b < x) : x.toNat ≤ b.toNat :=
    UInt8.le_iff_toNat_le.1 (UInt8.not_lt.1 hx)
  rw [lead?] at h
  split_ifs at h with h1 h2 h3 h4 h5 h6 h7 h8 h9 <;> obtain rfl := Option.some.inj h
  -- The classes of first bytes in their order: one byte, two bytes, and then two classes of three
  -- and of four bytes whose second bytes have bounds of their own.
  · exact .inl ⟨rfl, rfl⟩
  · have hb : 0xC2 ≤ b.toNat := hle h2
    exact .inr ⟨0, rfl, by simp; omega⟩
  · exact .inr ⟨1, rfl, by decide⟩
  · exact .inr ⟨1, rfl, by decide⟩
  · have hb : 0xE0 ≤ b.toNat := hle h3
    have hne : b.toNat ≠ 0xE0 := fun heq => h4 (UInt8.toNat_inj.1 heq)
    exact .inr ⟨1, rfl, by simp; omega⟩
  · exact .inr ⟨2, rfl, by decide⟩
  · have hb : 0xF0 ≤ b.toNat := hle h6
    have hne : b.toNat ≠ 0xF0 := fun heq => h7 (UInt8.toNat_inj.1 heq)
    exact .inr ⟨2, rfl, by simp; omega⟩
  · exact .inr ⟨2, rfl, by decide⟩

theorem eq_of_ofNat_eq {k : Nat} {c : Char} (hc : c ≠ '\x00') (h : Char.ofNat k = c) :
    k = c.toNat := by
  by_cases hvalid : k.isValidChar
  · rw [Char.ofNat, dif_pos hvalid] at h
    exact congrArg Char.toNat h
  · rw [Char.ofNat, dif_neg hvalid] at h
    exact absurd h.symm hc

/-- The control characters in front of U+0010 are read off their own bytes only. -/
theorem toNat_eq_of_next {c : Char} (hc : c ≠ '\x00') (hlow : c.toNat < 16) {b : UInt8}
    {rest : List UInt8} (h : (next b rest).1 = c) : b.toNat = c.toNat := by
  have hreplacement : replacement ≠ c := by
    rintro rfl
    exact absurd hlow (by decide)
  rw [next] at h
  -- What is no code point is read as the replacement character.
  cases hlead : lead? b with
  | none =>
    rw [hlead] at h
    exact absurd h hreplacement
  | some l =>
    rw [hlead] at h
    dsimp only at h
    rcases hextend : extend l.low l.high l.value l.following rest with ⟨_ | k, behind⟩
    · rw [hextend] at h
      exact absurd h hreplacement
    · rw [hextend] at h
      obtain rfl := eq_of_ofNat_eq hc h
      rcases lead?_bounds hlead with ⟨hfollowing, hvalue⟩ | ⟨n, hfollowing, hlarge⟩
      · rw [hfollowing, extend, hvalue] at hextend
        simp only [Prod.mk.injEq, Option.some.injEq] at hextend
        exact hextend.1
      · rw [hfollowing] at hextend
        have hle := le_of_extend_eq_some hextend
        omega

theorem oneLine_decode {bytes : List UInt8} (h : 0x0A ∉ bytes) : OneLine (decode bytes) := by
  rw [decode, oneLine_ofList]
  fun_induction decodeChars bytes with
  | case1 => simp
  | case2 b rest ih =>
    have hrest : 0x0A ∉ (next b rest).2 := fun hmem =>
      h (List.mem_cons_of_mem b ((suffix_next b rest).subset hmem))
    have hfirst : '\n' ≠ (next b rest).1 := by
      intro hbreak
      have hb := toNat_eq_of_next (by decide) (by decide) hbreak.symm
      exact h (List.mem_cons.2 (.inl (UInt8.toNat_inj.1 hb.symm)))
    rw [List.mem_cons, not_or]
    exact ⟨hfirst, ih hrest⟩

end Utf8

end Text

/-- The lines of a script hold no break. -/
theorem Source.oneLine_of_mem_lines {source : Source} {l : SourceLine} (h : l ∈ source.lines) :
    OneLine l.text := by
  obtain ⟨p, hp, rfl⟩ := List.mem_map.1 h
  apply Text.Utf8.oneLine_decode
  have hline : p.1 ∈ source.byteLines := List.fst_mem_of_mem_zipIdx hp
  rw [Source.byteLines] at hline
  split at hline
  · exact Text.notMem_of_mem_allLines hline
  · exact Text.notMem_of_mem_closedLines hline

/-! ## Tokens and numbers -/

theorem oneLine_of_mem_tokenize {text token : String} (htext : OneLine text)
    (h : token ∈ tokenize text) : OneLine token := by
  obtain ⟨l, hl, rfl⟩ := List.mem_map.1 h
  rw [oneLine_ofList]
  intro hbreak
  apply htext
  -- The characters of a lexeme are characters of the text.
  rw [← flatten_lexemes text.toList]
  exact List.mem_flatten.2 ⟨l.chars, List.mem_map_of_mem (List.mem_filter.1 hl).1, hbreak⟩

namespace Number

/-- The characters that numbers are written with. -/
def isNumeric (c : Char) : Bool := c.isDigit || c ∈ ".e+-NaInf".toList

theorem isNumeric_of_isDigit {c : Char} (h : c.isDigit) : isNumeric c := by simp [isNumeric, h]

theorem isNumeric_of_mem_digitChars {n : Nat} : ∀ c ∈ digitChars n, isNumeric c := fun _ hc =>
  isNumeric_of_isDigit (Nat.isDigit_of_mem_toDigits (b := 10) (by decide) (by decide) hc)

theorem isNumeric_of_mem_zeros {k : Nat} : ∀ c ∈ List.replicate k '0', isNumeric c := by
  intro c hc
  rw [List.eq_of_mem_replicate hc]
  decide

theorem isNumeric_of_mem_pointAfter {ds : List Char} (h : ∀ c ∈ ds, isNumeric c) (k : Nat) :
    ∀ c ∈ pointAfter k ds, isNumeric c := by
  rw [pointAfter]
  split
  · exact h
  · simp only [List.forall_mem_append, List.forall_mem_cons]
    exact ⟨fun c hc => h c (List.mem_of_mem_take hc), by decide,
      fun c hc => h c (List.mem_of_mem_drop hc)⟩

theorem isNumeric_of_mem_decimalChars (l : Layout) (d : Decimal) :
    ∀ c ∈ decimalChars l d, isNumeric c := by
  have hdigits := isNumeric_of_mem_digitChars (n := d.digits)
  rw [decimalChars]
  split
  · rw [positional]
    split_ifs
    · exact List.forall_mem_append.2 ⟨hdigits, isNumeric_of_mem_zeros⟩
    · exact isNumeric_of_mem_pointAfter hdigits _
    · simp only [List.forall_mem_append, List.forall_mem_cons]
      exact ⟨by decide, by decide, isNumeric_of_mem_zeros, hdigits⟩
  · have hsign : isNumeric (if d.leading < 0 then '-' else '+') := by split <;> decide
    rw [scientific, exponentChars]
    simp only [List.forall_mem_append, List.forall_mem_cons]
    exact ⟨isNumeric_of_mem_pointAfter hdigits 1, by decide, hsign, isNumeric_of_mem_zeros,
      isNumeric_of_mem_digitChars⟩

theorem isNumeric_of_mem_chars (v : Float) : ∀ c ∈ chars v, isNumeric c := by
  rw [chars]
  dsimp only
  split_ifs
  · exact List.all_eq_true.1 (by decide)
  · exact List.all_eq_true.1 (by decide)
  · exact List.all_eq_true.1 (by decide)
  · exact List.forall_mem_cons.2 ⟨by decide, isNumeric_of_mem_decimalChars _ _⟩
  · exact isNumeric_of_mem_decimalChars _ _

/-- The text of a number holds no break. -/
theorem oneLine_text (v : Float) : OneLine (text v) := by
  rw [text, oneLine_ofList]
  intro hbreak
  exact absurd (isNumeric_of_mem_chars v '\n' hbreak) (by decide)

end Number

/-! ## Records -/

/-- The values of the variables hold no break. -/
def Store.OneLine (store : Store) : Prop :=
  ∀ key value, store.get? key = some value → DeckScript.OneLine value

/-- The tokens of the record hold no break. -/
def Record.OneLine (r : Record) : Prop := ∀ token ∈ r.tokens, DeckScript.OneLine token

theorem Store.OneLine.insert {store : Store} (h : store.OneLine) {key value : String}
    (hvalue : DeckScript.OneLine value) : Store.OneLine (store.insert key value) := by
  intro k v hget
  rw [Table.get?_insert] at hget
  split at hget
  · cases hget
    exact hvalue
  · exact h k v hget

theorem Store.OneLine.resolve {store : Store} (h : store.OneLine) {token : String}
    (htoken : DeckScript.OneLine token) : DeckScript.OneLine (store.resolve token) := by
  cases hget : store.get? token with
  | none => rwa [resolve_of_get?_eq_none hget]
  | some value =>
    rw [resolve_of_get? hget]
    exact h token value hget

namespace Record.OneLine

variable {r : Record}

theorem arg (h : r.OneLine) (i : Nat) : DeckScript.OneLine (r.arg i) := by
  rw [Record.arg, List.getD_eq_getElem?_getD]
  cases htoken : r.tokens[i]? with
  | none =>
    rw [Option.getD_none]
    decide
  | some token => exact h token (List.mem_of_getElem? htoken)

theorem argD (h : r.OneLine) (i : Nat) {value : String} (hvalue : DeckScript.OneLine value) :
    DeckScript.OneLine (r.argD i value) := by
  rw [Record.argD, Record.arg?]
  cases htoken : r.tokens[i]? with
  | none => exact hvalue
  | some token => exact h token (List.mem_of_getElem? htoken)

theorem argsFrom (h : r.OneLine) (i : Nat) : ∀ token ∈ r.argsFrom i, DeckScript.OneLine token :=
  fun token htoken => h token (List.mem_of_mem_drop htoken)

end Record.OneLine

theorem Store.OneLine.ofLine {store : Store} (h : store.OneLine) {text : String}
    (htext : DeckScript.OneLine text) (line : Nat) : (Record.ofLine store line text).OneLine := by
  intro token htoken
  have htokens : ∀ t ∈ tokenize text, DeckScript.OneLine t := fun t => oneLine_of_mem_tokenize htext
  rw [Record.ofLine] at htoken
  cases htokenize : tokenize text with
  | nil =>
    rw [htokenize] at htoken
    cases htoken
  | cons first others =>
    rw [htokenize] at htoken htokens
    rcases List.mem_cons.1 htoken with rfl | htoken
    · exact htokens token List.mem_cons_self
    · obtain ⟨t, ht, rfl⟩ := List.mem_map.1 htoken
      exact h.resolve (htokens t (List.mem_cons_of_mem first ht))

/-! ## The records of grids and loops -/

/-- A cell is made of the tokens of a line and of numbers. -/
theorem Grid.Cursor.oneLine_cell (c : Grid.Cursor) {store : Store} (hstore : store.OneLine)
    {text : String} (htext : OneLine text) (line : Nat) : (c.cell store line text).OneLine := by
  intro token htoken
  obtain ⟨t, ht, rfl⟩ := List.mem_map.1 htoken
  rw [coordinate]
  split_ifs
  · exact Number.oneLine_text _
  · exact Number.oneLine_text _
  · exact hstore.ofLine htext line t ht

theorem Literal.oneLine_inner {s : String} (h : OneLine s) : OneLine (inner s) := by
  rw [inner, oneLine_ofList]
  intro hmem
  exact h (List.mem_of_mem_drop ((List.dropLast_sublist _).subset hmem))

theorem Literal.oneLine_requote {item : String} (h : OneLine item) : OneLine (requote item) := by
  rw [requote, oneLine_append, oneLine_append]
  refine ⟨⟨by decide, ?_⟩, by decide⟩
  split
  · exact oneLine_inner h
  · exact h

section Loops

variable {φ : Type} [FileStore φ]

omit [FileStore φ] in
theorem Loop.rangeOfRecord_ne_items {r : Record} {tokens : List String} :
    rangeOfRecord r ≠ .ok (.items tokens) := by
  intro h
  obtain ⟨first, -, h⟩ := exists_of_bind_eq_ok h
  obtain ⟨last, -, h⟩ := exists_of_bind_eq_ok h
  -- The step is read, or it is one; either way a range follows.
  dsimp only at h
  split at h <;>
    (obtain ⟨step, -, h⟩ := exists_of_bind_eq_ok h
     split at h <;> cases h)

omit [FileStore φ] in
/-- The items of a loop are tokens of its header. -/
theorem Loop.Header.mem_tokens_of_items {header : Record} {loop : Loop.Header}
    (hloop : Loop.Header.ofRecord header = .ok loop) {tokens : List String}
    (hsource : loop.source = .items tokens) : ∀ token ∈ tokens, token ∈ header.tokens := by
  rw [ofRecord] at hloop
  split at hloop
  · cases hloop
  obtain ⟨source, hread, rfl⟩ := exists_of_map_eq_ok hloop
  obtain rfl : source = .items tokens := hsource
  rw [Source.ofRecord] at hread
  split at hread
  · cases hread
    intro token htoken
    exact List.mem_of_mem_drop ((List.dropLast_sublist _).subset htoken)
  · split at hread
    · split at hread <;> cases hread
    · split at hread
      · exact absurd hread rangeOfRecord_ne_items
      · cases hread

/-- The values of a loop are numbers, tokens of its header, or lines of a file. -/
theorem Loop.Header.oneLine_of_mem_values {header : Record} (hheader : header.OneLine)
    {loop : Loop.Header} (hloop : Loop.Header.ofRecord header = .ok loop) {w : World φ}
    {values : List String} (hvalues : (loop.source.values w).2 = .ok values) :
    ∀ value ∈ values, OneLine value := by
  intro value hvalue
  cases hsource : loop.source with
  | range first last step =>
    rw [hsource] at hvalues
    obtain rfl := Except.ok.inj hvalues
    obtain ⟨k, -, rfl⟩ := List.mem_map.1 hvalue
    exact Number.oneLine_text _
  | file name =>
    rw [hsource, Source.values, World.open?] at hvalues
    cases hread : FileStore.read w.files name with
    | error reason =>
      rw [hread] at hvalues
      cases hvalues
    | ok contents =>
      rw [hread] at hvalues
      obtain rfl := Except.ok.inj hvalues
      rw [fileValues] at hvalue
      obtain ⟨l, hl, rfl⟩ := List.mem_map.1 hvalue
      exact Literal.oneLine_requote (Text.oneLine_of_mem_lines (List.mem_filter.1 hl).1)
  | items tokens =>
    rw [hsource] at hvalues
    obtain rfl := Except.ok.inj hvalues
    obtain ⟨token, htoken, rfl⟩ := List.mem_map.1 hvalue
    exact Literal.oneLine_requote (hheader token (mem_tokens_of_items hloop hsource token htoken))

/-- A line with a value of the loop put in has tokens without breaks. -/
theorem oneLine_of_mem_loopRecords {header : SourceLine} {body : List SourceLine} {w u : World φ}
    {rs : List Record} (hlines : ∀ l ∈ header :: body, OneLine l.text) (hstore : w.store.OneLine)
    (h : loopRecords header body w = (u, .ok rs)) : ∀ r ∈ rs, r.OneLine := by
  intro r hr
  obtain ⟨loop, values, value, l, hloop, hvalues, hvalue, hl, rfl⟩ :=
    exists_of_mem_loopRecords h hr
  have hheader : (header.record w.store).OneLine :=
    hstore.ofLine (hlines header List.mem_cons_self) header.number
  have hput := loop.oneLine_of_mem_values hheader hloop (w := w) (by rw [hvalues]) value hvalue
  intro token htoken
  obtain ⟨t, ht, rfl⟩ := List.mem_map.1 htoken
  split
  · exact hput
  · exact hstore.ofLine (hlines l (List.mem_cons_of_mem header hl)) l.number t ht

end Loops

/-! ## Assignments -/

/-- A value that is calculated is the text of a number. -/
def IsNumberText (value : String) : Prop := ∃ v, value = Number.text v

theorem IsNumberText.oneLine {value : String} (h : IsNumberText value) : OneLine value := by
  obtain ⟨v, rfl⟩ := h
  exact Number.oneLine_text v

theorem isNumberText_operationValue {store : Store} {r : Record} {value : String}
    (h : operationValue store r = .ok value) : IsNumberText value := by
  obtain ⟨x, -, h⟩ := exists_of_bind_eq_ok h
  obtain ⟨y, -, h⟩ := exists_of_bind_eq_ok h
  split at h
  · cases h
  · obtain ⟨result, -, h⟩ := exists_of_bind_eq_ok h
    exact ⟨result, (Except.ok.inj h).symm⟩

theorem isNumberText_polarValue {store : Store} {r : Record} {value : String}
    (h : polarValue store r = .ok value) : IsNumberText value := by
  rw [polarValue] at h
  split at h
  · cases h
  · obtain ⟨cx, -, h⟩ := exists_of_bind_eq_ok h
    obtain ⟨cy, -, h⟩ := exists_of_bind_eq_ok h
    obtain ⟨radius, -, h⟩ := exists_of_bind_eq_ok h
    obtain ⟨theta, -, h⟩ := exists_of_bind_eq_ok h
    exact ⟨_, (Except.ok.inj h).symm⟩

theorem isNumberText_rescaledValue {store : Store} {r : Record} {value : String}
    (h : rescaledValue store r = .ok value) : IsNumberText value := by
  rw [rescaledValue] at h
  split at h
  · cases h
  · obtain ⟨v, -, h⟩ := exists_of_bind_eq_ok h
    obtain ⟨low₁, -, h⟩ := exists_of_bind_eq_ok h
    obtain ⟨high₁, -, h⟩ := exists_of_bind_eq_ok h
    obtain ⟨low₂, -, h⟩ := exists_of_bind_eq_ok h
    obtain ⟨high₂, -, h⟩ := exists_of_bind_eq_ok h
    exact ⟨_, (Except.ok.inj h).symm⟩

theorem oneLine_assignedValue {store : Store} {random : RandomStream} {r : Record}
    {p : String × RandomStream} (hr : r.OneLine) (h : assignedValue store random r = .ok p) :
    OneLine p.1 := by
  rw [assignedValue] at h
  split at h
  · cases h
    exact hr.arg 2
  · split at h
    · obtain ⟨low, -, h⟩ := exists_of_bind_eq_ok h
      obtain ⟨high, -, h⟩ := exists_of_bind_eq_ok h
      cases h
      exact Number.oneLine_text _
    · obtain ⟨value, hvalue, rfl⟩ := exists_of_map_eq_ok h
      exact (isNumberText_operationValue hvalue).oneLine
  · obtain ⟨value, hvalue, rfl⟩ := exists_of_map_eq_ok h
    exact (isNumberText_polarValue hvalue).oneLine
  · obtain ⟨value, hvalue, rfl⟩ := exists_of_map_eq_ok h
    exact (isNumberText_rescaledValue hvalue).oneLine
  · cases h

theorem oneLine_compoundValue {store : Store} {r : Record} {value : String}
    (h : compoundValue store r = .ok value) : OneLine value := by
  obtain ⟨x, -, h⟩ := exists_of_bind_eq_ok h
  obtain ⟨y, -, h⟩ := exists_of_bind_eq_ok h
  split at h
  · cases h
  · obtain ⟨result, -, h⟩ := exists_of_bind_eq_ok h
    cases h
    exact Number.oneLine_text _

/-- After an assignment the variables hold no breaks, if they and the record held none. -/
theorem oneLine_runAssignment {φ : Type} {r : Record} (hr : r.OneLine) {w v : World φ}
    (hw : w.store.OneLine) (h : runAssignment r w = .done v) : v.store.OneLine := by
  rw [runAssignment] at h
  split at h
  · cases hassign : assign w.store w.random r with
    | error fault =>
      rw [hassign] at h
      cases h
    | ok after =>
      rw [hassign] at h
      cases h
      obtain ⟨p, hp, rfl⟩ := exists_of_map_eq_ok hassign
      exact hw.insert (oneLine_assignedValue hr hp)
  · split at h
    · cases hassign : assignCompound w.store r with
      | error fault =>
        rw [hassign] at h
        cases h
      | ok store =>
        rw [hassign] at h
        cases h
        obtain ⟨value, hvalue, rfl⟩ := exists_of_map_eq_ok hassign
        exact hw.insert (oneLine_compoundValue hvalue)
    · cases h
      exact hw

end DeckScript
