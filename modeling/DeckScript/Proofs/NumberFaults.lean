import DeckScript.Proofs.FaultPlaces
import DeckScript.Proofs.LoopVariable
import DeckScript.Proofs.NumberToken
import DeckScript.Proofs.Readings
import DeckScript.Proofs.TokenSpacing

/-!
# Tokens that are called no number

The scanner and the reader of numbers have grammars of their own. A number token with decimal
digits is in both of them. So whatever a line reads as a number, such a token is never called none
of its own accord: only an assignment to its text can make it stand for something else, and the
header of a loop refuses what is too large to be finite.

Assignments, grids, computed shapes and loops read their numbers one after the other, and the first
reading that fails names its token. This is followed through every line that reads numbers by a
predicate of readings that is closed under doing one after the other.

## Main definitions

* `IsHexadecimal` — a number that begins with zero and the mark of its base
* `Record.IsNoNumber`, `Record.IsNoBound` — an argument that writes no number, and one that bounds
  no loop
* `Record.CallsNoNumber`, `Record.CallsNoBound` — a fault only calls such arguments no number

## Main results

* `isDecimalNumber_of_mem_lexemes` — number tokens have the shape of decimal numbers
* `Call.isNoNumber_of_fault?`, `isNoBound_of_fault?` — what a line calls no number is none
* `decimal_token_is_number` — a decimal number token is a number wherever it is used as one
-/

namespace DeckScript

open Lexeme

/-! ## Decimal number tokens -/

/-- The characters begin with a zero and the mark of hexadecimal digits. -/
def IsHexadecimal (t : List Char) : Prop := ['0', 'x'] <+: t ∨ ['0', 'X'] <+: t

instance : DecidablePred IsHexadecimal := fun _ => inferInstanceAs (Decidable (_ ∨ _))

theorem hexExtent?_of_not_isHexadecimal {rest : List Char} (h : ¬ IsHexadecimal ('0' :: rest)) :
    hexExtent? rest = none := by
  match rest with
  | [] | [_] => rfl
  | mark :: c :: more =>
    rw [hexExtent?, if_neg]
    rintro ⟨rfl | rfl, -⟩
    · exact h (.inl ⟨c :: more, rfl⟩)
    · exact h (.inr ⟨c :: more, rfl⟩)

/-- Every lexeme of a text has the form of its kind in front of what follows it. -/
theorem exists_reads_of_mem_lexemes {s : List Char} {l : Lexeme} (h : l ∈ lexemes s) :
    ∃ rest, Reads l.kind l.chars rest := by
  fun_induction lexemes s with
  | case1 => cases h
  | case2 c rest e ih =>
    rcases List.mem_cons.1 h with rfl | h
    · exact ⟨_, reads_extent c rest⟩
    · exact ih h

/-- A number token that is not hexadecimal is a decimal number on its own. -/
theorem isDecimalNumber_of_mem_lexemes {s : List Char} {l : Lexeme} (h : l ∈ lexemes s)
    (hkind : l.kind = .number) (hdecimal : ¬ IsHexadecimal l.chars) :
    IsDecimalNumber (String.ofList l.chars) := by
  obtain ⟨rest, hreads⟩ := exists_reads_of_mem_lexemes h
  rw [hkind] at hreads
  -- What follows the token in its line does not matter.
  have halone := hreads.setOff (u := []) rfl (by simp) (.inl rfl)
  obtain ⟨c, word, hchars, hextent⟩ := halone.exists_cons
  rw [List.append_nil] at hextent
  refine ⟨c, word, by rw [String.toList_ofList, hchars], hextent, ?_⟩
  rintro rfl
  rw [hchars] at hdecimal
  exact hexExtent?_of_not_isHexadecimal hdecimal

/-! ## Arguments that are no numbers -/

/-- The token is an argument of the line or the value of one, and it writes no number or it names a
variable that does not. -/
structure Record.IsNoNumber (r : Record) (store : Store) (token : String) : Prop where
  argument : ∃ i, token = r.arg i ∨ token = store.resolve (r.arg i)
  unread : Number.parse? token = none ∨ Number.parse? (store.resolve token) = none

/-- The token is an argument of the line that writes no number, or none that is finite. -/
structure Record.IsNoBound (r : Record) (token : String) : Prop where
  argument : ∃ i, token = r.arg i
  infinite : ∀ v, Number.parse? token = some v → v.isFinite = false

/-- If the fault calls a token no number, the line has it as an argument that is none. -/
def Record.CallsNoNumber (r : Record) (store : Store) (f : Fault) : Prop :=
  ∀ token, f = .notANumber token → r.IsNoNumber store token

/-- If the fault calls a token no number, the line has it as an argument that bounds no loop. -/
def Record.CallsNoBound (r : Record) (f : Fault) : Prop :=
  ∀ token, f = .notANumber token → r.IsNoBound token

section Arguments

variable (store : Store) (r : Record) (i : Nat)

theorem callsNoNumber_of_kind {f : Fault} (h : f.kind ≠ .number) : r.CallsNoNumber store f := by
  rintro token rfl
  exact absurd rfl h

theorem callsNoNumber_of_argument {token : String}
    (h : ∃ i, token = r.arg i ∨ token = store.resolve (r.arg i)) :
    FaultsOnly (r.CallsNoNumber store) (number token) := by
  refine (faultsOnly_number token).mono ?_
  rintro _ ⟨rfl, hread⟩ _ ⟨⟩
  exact ⟨h, .inl hread⟩

theorem callsNoNumber_number : FaultsOnly (r.CallsNoNumber store) (r.number i) :=
  callsNoNumber_of_argument store r ⟨i, .inl rfl⟩

theorem callsNoNumber_gridNumber :
    FaultsOnly (r.CallsNoNumber store) (Directive.gridNumber store r i) :=
  callsNoNumber_of_argument store r ⟨i, .inr rfl⟩

theorem callsNoNumber_numberD (value : Float) :
    FaultsOnly (r.CallsNoNumber store) (r.numberD i value) := by
  rw [Record.numberD]
  cases harg : r.arg? i with
  | none => exact .ok value
  | some token =>
    have htoken : token = r.arg i := by
      rw [Record.arg?] at harg
      rw [Record.arg, List.getD_eq_getElem?_getD, harg, Option.getD_some]
    exact callsNoNumber_of_argument store r ⟨i, .inl htoken⟩

theorem callsNoNumber_operand : FaultsOnly (r.CallsNoNumber store) (operand store (r.arg i)) := by
  refine (faultsOnly_operand store (r.arg i)).mono ?_
  rintro _ ⟨rfl, hread⟩ _ ⟨⟩
  exact ⟨⟨i, .inl rfl⟩, .inr hread⟩

theorem callsNoNumber_fileName (token : String) :
    FaultsOnly (r.CallsNoNumber store) (fileName token) := by
  refine (faultsOnly_fileName token).mono ?_
  rintro _ rfl
  exact callsNoNumber_of_kind store r nofun

theorem callsNoNumber_calculate (op : Operator) (x y : Float) :
    FaultsOnly (r.CallsNoNumber store) (calculate op x y) := by
  refine (faultsOnly_calculate op x y).mono ?_
  rintro _ rfl
  exact callsNoNumber_of_kind store r nofun

theorem callsNoBound_finiteNumber :
    FaultsOnly r.CallsNoBound (Loop.finiteNumber (r.arg i)) := by
  refine (faultsOnly_finiteNumber (r.arg i)).mono ?_
  rintro _ ⟨rfl, hinfinite⟩ _ ⟨⟩
  exact ⟨⟨i, rfl⟩, hinfinite⟩

end Arguments

/-! ## Lines that read numbers -/

section Directives

open Directive

/-- On every line the directive calls only arguments no number that are none. -/
def Directive.CallsNoNumbers (d : Directive) : Prop :=
  ∀ store r, FaultsOnly (r.CallsNoNumber store) (d.ask store r)

theorem callsNoNumbers_request {arity : Arity} {synopsis : String}
    {ask : Store → Record → Except Fault Request}
    (h : ∀ store r, FaultsOnly (r.CallsNoNumber store) (ask store r)) :
    CallsNoNumbers ⟨arity, synopsis, .request ask⟩ := by
  intro store r
  rw [Directive.ask]
  split
  · exact h store r
  · exact .error (by rintro _ ⟨⟩)

theorem callsNoNumbers_elements {arity : Arity} {synopsis : String}
    {f : Record → Except Fault (List Markup.Element)}
    (h : ∀ store r, FaultsOnly (r.CallsNoNumber store) (f r)) :
    (elements arity synopsis f).CallsNoNumbers := by
  intro store r
  rw [Directive.ask]
  split
  · exact (h store r).map _
  · exact .error (by rintro _ ⟨⟩)

theorem callsNoNumbers_element (arity : Arity) (synopsis : String)
    (f : Record → Markup.Element) : (element arity synopsis f).CallsNoNumbers :=
  callsNoNumbers_elements fun _ _ => .ok _

theorem callsNoNumbers_rotatedText : rotatedText.CallsNoNumbers := by
  refine callsNoNumbers_elements fun store r => ?_
  split
  · exact .ok _
  -- A wrong angle has a wording of its own.
  · exact .error (by rintro _ ⟨⟩)

theorem callsNoNumbers_legend : legend.CallsNoNumbers := by
  refine callsNoNumbers_elements fun store r => ?_
  refine (callsNoNumber_number store r 2).bind fun x => ?_
  exact (callsNoNumber_number store r 3).bind fun y => .ok _

theorem callsNoNumbers_measuredLine
    {finish : Record → Float → Except Fault (String × String)}
    (h : ∀ store r length, FaultsOnly (r.CallsNoNumber store) (finish r length)) :
    (measuredLine finish).CallsNoNumbers := by
  refine callsNoNumbers_elements fun store r => ?_
  refine (callsNoNumber_number store r 3).bind fun length => ?_
  exact (h store r length).bind fun p => .ok _

theorem callsNoNumbers_horizontalLine : horizontalLine.CallsNoNumbers :=
  callsNoNumbers_measuredLine fun store r _ => (callsNoNumber_number store r 1).bind fun _ => .ok _

theorem callsNoNumbers_verticalLine : verticalLine.CallsNoNumbers :=
  callsNoNumbers_measuredLine fun store r _ => (callsNoNumber_number store r 2).bind fun _ => .ok _

theorem callsNoNumbers_arrow : arrow.CallsNoNumbers := by
  refine callsNoNumbers_elements fun store r => ?_
  refine (callsNoNumber_number store r 1).bind fun x₁ => ?_
  refine (callsNoNumber_number store r 2).bind fun y₁ => ?_
  refine (callsNoNumber_number store r 3).bind fun x₂ => ?_
  refine (callsNoNumber_number store r 4).bind fun y₂ => ?_
  refine (callsNoNumber_numberD store r 6 headSize).bind fun width => ?_
  exact (callsNoNumber_numberD store r 7 headSize).bind fun height => .ok _

theorem callsNoNumbers_curvedArrow (direction : Geometry.Direction) :
    (curvedArrow direction).CallsNoNumbers := by
  refine callsNoNumbers_elements fun store r => ?_
  refine (callsNoNumber_number store r 5).bind fun x => ?_
  refine (callsNoNumber_number store r 6).bind fun y => ?_
  refine (callsNoNumber_numberD store r 8 headSize).bind fun width => ?_
  exact (callsNoNumber_numberD store r 9 headSize).bind fun height => .ok _

theorem callsNoNumber_bracePaint (store : Store) (r : Record) :
    FaultsOnly (r.CallsNoNumber store) (bracePaint r) := by
  refine (callsNoNumber_numberD store r 6 0).bind fun _ => ?_
  exact (callsNoNumber_numberD store r 8 0).bind fun _ => .ok _

theorem callsNoNumbers_braceShape (direction : Geometry.Direction) :
    (braceShape direction).CallsNoNumbers := by
  refine callsNoNumbers_elements fun store r => ?_
  refine (callsNoNumber_number store r 1).bind fun x => ?_
  refine (callsNoNumber_number store r 2).bind fun y => ?_
  refine (callsNoNumber_number store r 3).bind fun size => ?_
  refine (callsNoNumber_number store r 4).bind fun width => ?_
  refine (callsNoNumber_number store r 5).bind fun height => ?_
  exact (callsNoNumber_bracePaint store r).bind fun paint => .ok _

theorem callsNoNumbers_inclusion : inclusion.CallsNoNumbers :=
  callsNoNumbers_request fun store r => (callsNoNumber_fileName store r _).map _

theorem callsNoNumbers_grid : grid.CallsNoNumbers := by
  refine callsNoNumbers_request fun store r => ?_
  refine (callsNoNumber_gridNumber store r 2).bind fun x => ?_
  refine (callsNoNumber_gridNumber store r 3).bind fun y => ?_
  refine (callsNoNumber_gridNumber store r 4).bind fun xStep => ?_
  refine (callsNoNumber_gridNumber store r 5).bind fun yStep => ?_
  refine (callsNoNumber_gridNumber store r 6).bind fun limit => ?_
  exact (callsNoNumber_fileName store r _).bind fun file => .ok _

theorem callsNoNumbers_chart : chart.CallsNoNumbers :=
  callsNoNumbers_request fun _ _ => .ok _

theorem callsNoNumbers_of_mem : ∀ e ∈ Vocabulary.standardEntries, e.2.CallsNoNumbers := by
  simp only [Vocabulary.standardEntries, deckEntries, textEntries, imageEntries, shapeEntries,
    arrowEntries, externalEntries, List.forall_mem_append, List.forall_mem_cons, List.not_mem_nil,
    false_implies, implies_true, and_true]
  and_intros
  -- A directive without a lemma of its own adds one element of its tokens.
  all_goals first
    | with_reducible exact callsNoNumbers_curvedArrow _
    | with_reducible exact callsNoNumbers_braceShape _
    | with_reducible exact callsNoNumbers_inclusion
    | with_reducible exact callsNoNumbers_rotatedText
    | with_reducible exact callsNoNumbers_legend
    | with_reducible exact callsNoNumbers_horizontalLine
    | with_reducible exact callsNoNumbers_verticalLine
    | with_reducible exact callsNoNumbers_arrow
    | with_reducible exact callsNoNumbers_grid
    | with_reducible exact callsNoNumbers_chart
    | exact callsNoNumbers_element _ _ _

end Directives

section Assignments

variable (store : Store) (r : Record)

theorem callsNoNumber_randomValue (random : RandomStream) :
    FaultsOnly (r.CallsNoNumber store) (randomValue store random r) := by
  refine (callsNoNumber_operand store r 3).bind fun low => ?_
  exact (callsNoNumber_operand store r 4).bind fun high => .ok _

theorem callsNoNumber_operationValue :
    FaultsOnly (r.CallsNoNumber store) (operationValue store r) := by
  refine (callsNoNumber_operand store r 2).bind fun x => ?_
  refine (callsNoNumber_operand store r 4).bind fun y => ?_
  split
  · exact .error (by rintro _ ⟨⟩)
  · exact (callsNoNumber_calculate store r _ x y).bind fun v => .ok _

theorem callsNoNumber_polarValue : FaultsOnly (r.CallsNoNumber store) (polarValue store r) := by
  rw [polarValue]
  split
  · exact .error (by rintro _ ⟨⟩)
  · refine (callsNoNumber_operand store r 3).bind fun cx => ?_
    refine (callsNoNumber_operand store r 4).bind fun cy => ?_
    refine (callsNoNumber_operand store r 5).bind fun radius => ?_
    exact (callsNoNumber_operand store r 6).bind fun theta => .ok _

theorem callsNoNumber_rescaledValue :
    FaultsOnly (r.CallsNoNumber store) (rescaledValue store r) := by
  rw [rescaledValue]
  split
  · exact .error (by rintro _ ⟨⟩)
  · refine (callsNoNumber_operand store r 3).bind fun value => ?_
    refine (callsNoNumber_operand store r 4).bind fun low₁ => ?_
    refine (callsNoNumber_operand store r 5).bind fun high₁ => ?_
    refine (callsNoNumber_operand store r 6).bind fun low₂ => ?_
    exact (callsNoNumber_operand store r 7).bind fun high₂ => .ok _

theorem callsNoNumber_assignedValue (random : RandomStream) :
    FaultsOnly (r.CallsNoNumber store) (assignedValue store random r) := by
  rw [assignedValue]
  split
  · exact .ok _
  · split
    · exact callsNoNumber_randomValue store r random
    · exact (callsNoNumber_operationValue store r).map _
  · exact (callsNoNumber_polarValue store r).map _
  · exact (callsNoNumber_rescaledValue store r).map _
  · exact .error (by rintro _ ⟨⟩)

theorem callsNoNumber_compoundValue :
    FaultsOnly (r.CallsNoNumber store) (compoundValue store r) := by
  refine (callsNoNumber_operand store r 0).bind fun x => ?_
  refine (callsNoNumber_number store r 3).bind fun y => ?_
  split
  · exact .error (by rintro _ ⟨⟩)
  · exact (callsNoNumber_calculate store r _ x y).bind fun v => .ok _

end Assignments

theorem callsNoBound_rangeOfRecord (r : Record) :
    FaultsOnly r.CallsNoBound (Loop.rangeOfRecord r) := by
  refine (callsNoBound_finiteNumber r 3).bind fun first => ?_
  refine (callsNoBound_finiteNumber r 4).bind fun last => ?_
  have hstep (step : Float) : FaultsOnly r.CallsNoBound
      (if 0 < step then .ok (.range first last step) else .error (.increment (r.arg 5)) :
        Except Fault Loop.Source) := by
    split
    · exact .ok _
    · exact .error (by rintro _ ⟨⟩)
  split
  · exact (callsNoBound_finiteNumber r 5).bind hstep
  · exact hstep 1

theorem callsNoBound_header (r : Record) : FaultsOnly r.CallsNoBound (Loop.Header.ofRecord r) := by
  rw [Loop.Header.ofRecord]
  split
  · exact .error (by rintro _ ⟨⟩)
  · refine FaultsOnly.map ?_ _
    rw [Loop.Source.ofRecord]
    split
    · exact .ok _
    · split
      · split
        · exact .ok _
        · exact .error (by rintro _ ⟨⟩)
      · split
        · exact callsNoBound_rangeOfRecord r
        · exact .error (by rintro _ ⟨⟩)

/-! ## Faults of acts -/

variable {φ : Type} {env : Environment} {token : String}

theorem isNoNumber_of_runAssignment {r : Record} {w : World φ}
    (h : (runAssignment r w).fault? = some (.notANumber token)) : r.IsNoNumber w.store token := by
  rw [runAssignment] at h
  split at h
  · cases hassign : assign w.store w.random r with
    | error fault =>
      rw [hassign] at h
      cases h
      exact (callsNoNumber_assignedValue w.store r w.random).map _ _ hassign token rfl
    | ok after =>
      rw [hassign] at h
      cases h
  · split at h
    · cases hassign : assignCompound w.store r with
      | error fault =>
        rw [hassign] at h
        cases h
        exact (callsNoNumber_compoundValue w.store r).map _ _ hassign token rfl
      | ok store =>
        rw [hassign] at h
        cases h
    · cases h

variable [FileStore φ]

/-- Once a line is found good, what it asks for calls no token no number. -/
theorem fault?_fulfil_ne (exec : Record → Step φ) (line : Nat) (request : Request) (w : World φ) :
    (fulfil env exec line request w).fault? ≠ some (.notANumber token) := by
  cases request with
  | emit elements => rintro ⟨⟩
  | set name value => rintro ⟨⟩
  | run text => rintro ⟨⟩
  | enter file =>
    rw [fulfil, runInclude, World.open?]
    split
    · rintro ⟨⟩
    · cases FileStore.read w.files file <;> rintro ⟨⟩
  | fillGrid file layout =>
    rw [fulfil, World.open?]
    cases FileStore.read w.files file <;> rintro ⟨⟩
  | chart command =>
    rw [fulfil]
    rcases runChart_cases env command w with ⟨reason, h⟩ | ⟨printed, h⟩ <;> rw [h] <;> rintro ⟨⟩

theorem fault?_runSource_ne (each : String → Step φ) (source : Loop.Source) (w : World φ) :
    (runSource each source w).fault? ≠ some (.notANumber token) := by
  cases source with
  | range first last step => rintro ⟨⟩
  | items tokens => rintro ⟨⟩
  | file name =>
    rw [runSource, World.open?]
    cases FileStore.read w.files name <;> rintro ⟨⟩

/-- What a record calls no number is an argument that is none. -/
theorem Call.isNoNumber_of_fault? (hstandard : env.vocabulary = .standard) {p : Call φ}
    (h : (Act.call p).fault? env = some (.notANumber token)) :
    p.record.IsNoNumber p.world.store token := by
  rw [Act.fault?, Act.attempt, execute] at h
  cases hd : env.vocabulary.get? p.record.keyword with
  | none =>
    rw [hd] at h
    have hrejected := isNoNumber_of_runAssignment h
    rwa [announce_store] at hrejected
  | some d =>
    rw [hd] at h
    simp only [announce_store] at h
    cases hask : d.ask p.world.store p.record with
    | error fault =>
      rw [hask] at h
      cases h
      rw [hstandard] at hd
      exact callsNoNumbers_of_mem _ (Table.mem_of_get?_ofList hd) _ _ _ hask token rfl
    | ok request =>
      rw [hask] at h
      exact absurd h (fault?_fulfil_ne _ _ _ _)

/-- What the header of a loop calls no number is an argument that bounds no loop. -/
theorem isNoBound_of_fault? {header : SourceLine} {body : List SourceLine} {w : World φ}
    (h : (Act.loop header body w).fault? env = some (.notANumber token)) :
    (header.record w.store).IsNoBound token := by
  rw [Act.fault?, Act.attempt, runLoop] at h
  cases hheader : Loop.Header.ofRecord (header.record w.store) with
  | error fault =>
    rw [hheader] at h
    cases h
    exact callsNoBound_header _ _ hheader token rfl
  | ok loop =>
    rw [hheader] at h
    exact absurd h (fault?_runSource_ne _ _ _)

/-- A data block calls nothing no number. -/
theorem fault?_data_ne {header : SourceLine} {rows : List SourceLine} {w : World φ} :
    (Act.data header rows w).fault? env ≠ some (.notANumber token) := by
  rw [Act.fault?, Act.attempt, runData]
  cases hname : Data.target (header.record w.store) with
  | error fault =>
    rintro h
    cases h
    cases faultsOnly_target _ _ hname
  | ok name =>
    simp only [World.save?]
    cases FileStore.write w.files name (Data.contents rows) <;> rintro ⟨⟩

/-- An act in whose state a number is no variable calls it no number only if it is the header of a
loop and the number is not finite. -/
theorem Act.exists_loop_of_fault? (hstandard : env.vocabulary = .standard) {a : Act φ} {v : Float}
    (hread : Number.parse? token = some v) (hstore : a.world.store.get? token = none)
    (h : a.fault? env = some (.notANumber token)) :
    v.isFinite = false ∧ ∃ header body w, a = .loop header body w := by
  cases a with
  | call p =>
    have hunread := (Call.isNoNumber_of_fault? hstandard h).unread
    change p.world.store.get? token = none at hstore
    rw [Store.resolve_of_get?_eq_none hstore, or_self, hread] at hunread
    cases hunread
  | loop header body w => exact ⟨(isNoBound_of_fault? h).infinite v hread, header, body, w, rfl⟩
  | data header rows w => exact absurd h fault?_data_ne

/-! ## Decimal number tokens in a run -/

/-- A number token of a line that is not hexadecimal is read as a number. Where it is no variable,
the line has it as it is, and every reading of it as an operand, a coordinate, an argument of a grid
or a bound of a loop gives that number; a bound has to be finite. In a run with the standard
vocabulary it is called no number only by an act in whose state it is a variable, or by the header
of a loop if it is not finite. -/
theorem decimal_token_is_number {text : String} {l : Lexeme} (h : l ∈ lexemes text.toList)
    (hkind : l.kind = .number) (hdecimal : ¬ IsHexadecimal l.chars)
    (hstandard : env.vocabulary = .standard) :
    let token := String.ofList l.chars
    ∃ v, Number.parse? token = some v ∧
      (∀ (store : Store) (line : Nat), store.get? token = none →
        token ∈ (Record.ofLine store line text).tokens ∧ operand store token = .ok v ∧
          number token = .ok v ∧ number (store.resolve token) = .ok v) ∧
      (v.isFinite → Loop.finiteNumber token = .ok v) ∧
      (∀ a : Act φ, a.world.store.get? token = none → a.fault? env = some (.notANumber token) →
        v.isFinite = false ∧ ∃ header body w, a = .loop header body w) ∧
      ∀ levels source (w : World φ), ∀ d ∈ (run env levels source w).world.report.toList,
        d.fault = .notANumber token →
        ∃ a ∈ history env levels source w, a.diagnostic? env = some d ∧
          ((a.world.store.get? token).isSome ∨
            v.isFinite = false ∧ ∃ header body w', a = .loop header body w') := by
  intro token
  obtain ⟨v, hv⟩ := (isDecimalNumber_of_mem_lexemes h hkind hdecimal).exists_parse?
  have hnumber : number token = .ok v := by rw [number, hv]
  have hacts (a : Act φ) (hstore : a.world.store.get? token = none)
      (hfault : a.fault? env = some (.notANumber token)) :=
    Act.exists_loop_of_fault? hstandard hv hstore hfault
  refine ⟨v, hv, ?_, ?_, hacts, ?_⟩
  · intro store line hstore
    have hresolve := Store.resolve_of_get?_eq_none hstore
    refine ⟨?_, by rw [operand, hresolve, hv], hnumber, by rw [hresolve, hnumber]⟩
    have htoken : token ∈ tokenize text :=
      List.mem_map.2 ⟨l, List.mem_filter.2 ⟨h, by rw [hkind]; rfl⟩, rfl⟩
    rw [Record.ofLine]
    dsimp only
    -- The first token of a line stays as it is, and the others stay if they are no variables.
    cases htokens : tokenize text with
    | nil =>
      rw [htokens] at htoken
      cases htoken
    | cons first others =>
      rw [htokens] at htoken
      rcases List.mem_cons.1 htoken with heq | hmem
      · exact heq ▸ List.mem_cons_self
      · exact List.mem_cons_of_mem _ (List.mem_map.2 ⟨token, hmem, hresolve⟩)
  · intro hfinite
    rw [Loop.finiteNumber, hnumber]
    exact if_pos hfinite
  · intro levels source w d hd hfault
    rw [report_run, List.mem_filterMap] at hd
    obtain ⟨a, ha, hdiagnostic⟩ := hd
    refine ⟨a, ha, hdiagnostic, ?_⟩
    -- The state that counts is the one in front of the act that is to blame.
    cases hstore : a.world.store.get? token with
    | some value => exact .inl rfl
    | none =>
      rw [Act.diagnostic?, Option.map_eq_some_iff] at hdiagnostic
      obtain ⟨fault, hact, rfl⟩ := hdiagnostic
      obtain rfl : fault = .notANumber token := hfault
      exact .inr (hacts a hstore hact)

theorem decimal_token_is_number_fraction :
    (⟨.number, ".5e+1".toList⟩ : Lexeme) ∈ lexemes "x = .5e+1 * 0x1f".toList ∧
      ¬ IsHexadecimal ".5e+1".toList ∧ bareEnvironment.vocabulary = .standard ∧
      ∃ v, Number.parse? ".5e+1" = some v ∧
        operand .empty ".5e+1" = .ok v ∧ number ".5e+1" = .ok v ∧
        (v.isFinite → Loop.finiteNumber ".5e+1" = .ok v) := by
  have hmem : (⟨.number, ".5e+1".toList⟩ : Lexeme) ∈ lexemes "x = .5e+1 * 0x1f".toList := by
    decide +kernel
  have hdecimal : ¬ IsHexadecimal ".5e+1".toList := by decide +kernel
  have hstandard : bareEnvironment.vocabulary = .standard := rfl
  obtain ⟨v, hv, hstore, hfinite, -, -⟩ :=
    decimal_token_is_number (φ := MemoryFiles) hmem rfl hdecimal hstandard
  obtain ⟨-, hoperand, hnumber, -⟩ := hstore .empty 1 rfl
  exact ⟨hmem, hdecimal, rfl, v, hv, hoperand, hnumber, hfinite⟩

/-- The scanner takes a hexadecimal number for one token that is read as no number. A loop refuses a
bound that is too large, and a number that is the name of a variable stands for its value. -/
theorem number_tokens_rejected :
    (⟨.number, "0x1f".toList⟩ : Lexeme) ∈ lexemes "x = 0x1f + 1".toList ∧
      Number.parse? "0x1f" = none ∧
      (dispatch bareEnvironment 1 (Record.ofLine .empty 1 "x = 0x1f + 1")
        (bareWorld .empty)).world.report.toList = [⟨1, none, .notANumber "0x1f"⟩] ∧
      (⟨.number, "1e999".toList⟩ : Lexeme) ∈ lexemes "for i = 1e999 2".toList ∧
      (Number.parse? "1e999").isSome ∧
      (runBlock (dispatch bareEnvironment 1) (.loop ⟨1, "for i = 1e999 2"⟩ [])
        (bareWorld .empty)).world.report.toList = [⟨1, none, .notANumber "1e999"⟩] ∧
      let store := Table.empty.insert "5" "abc"
      (dispatch bareEnvironment 1 (Record.ofLine store 1 "x = 5 + 1")
        (bareWorld store)).world.report.toList = [⟨1, none, .notANumber "abc"⟩] := by
  decide +kernel

end DeckScript
