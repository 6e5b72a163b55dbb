import DeckScript.Proofs.MarkupLine
import DeckScript.Proofs.QuotedValues
import DeckScript.Proofs.SingleLines

/-!
# Elements on lines of their own

An element begins with an angle bracket and ends with one. What it holds of a line's tokens is
quoted, so that a break would be written with a backslash, or copied as it is; so on a line without
breaks every directive makes elements without breaks, and every keyword has its number of elements.

## Main definitions

* `Attribute.OneLine`, `Element.OneLine` — attributes and elements without a line break
* `elementCount` — the number of elements that a keyword adds to the markup
* `IsElementLine` — a line between angle brackets
* `linesText` — lines, each with its break

## Main results

* `Markup.oneLine_quote` — a quoted value holds no break
* `Element.OneLine.isElementLine` — an element without breaks is a line between angle brackets
* `Vocabulary.writesAs` — what the directives of the standard vocabulary write
-/

namespace DeckScript

namespace Markup

/-! ## Attributes -/

/-- A quoted value holds no break, whatever the value. -/
theorem oneLine_quote (s : String) : OneLine (quote s) := fun hbreak =>
  absurd (isControl_eq_false_of_mem_quote hbreak) (by decide)

/-- A text without breaks has none when its reserved characters are entities. -/
theorem oneLine_escape {s : String} (h : OneLine s) : OneLine (escape s) := by
  have hchar (c : Char) (hc : c ≠ '\n') : '\n' ∉ escapeChar c := by
    rw [escapeChar]
    split_ifs
    · decide
    · decide
    · decide
    · simpa using hc.symm
  rw [escape, oneLine_ofList, escapeChars]
  intro hmem
  obtain ⟨c, hc, hbreak⟩ := List.mem_flatMap.1 hmem
  refine hchar c ?_ hbreak
  rintro rfl
  exact h hc

theorem oneLine_shown {token : String} (h : OneLine token) : OneLine (shown token) := by
  rw [shown]
  split
  · decide
  · exact oneLine_escape (Literal.oneLine_inner h)

/-- The attribute is written on a single line: what is quoted always is. -/
def Attribute.OneLine (a : Attribute) : Prop :=
  DeckScript.OneLine a.name ∧ (a.style = .verbatim → DeckScript.OneLine a.value)

theorem Attribute.OneLine.text {a : Attribute} (h : a.OneLine) : DeckScript.OneLine a.text := by
  have hequals : DeckScript.OneLine "=" := by decide
  rw [Attribute.text, oneLine_append, oneLine_append]
  refine ⟨⟨h.1, hequals⟩, ?_⟩
  cases hstyle : a.style with
  | verbatim => exact h.2 hstyle
  | quoted => exact oneLine_quote a.value

/-- All attributes of a list are written on a single line. -/
def AllOneLine (attributes : List Attribute) : Prop := ∀ a ∈ attributes, a.OneLine

@[simp] theorem allOneLine_nil : AllOneLine [] := by simp [AllOneLine]

@[simp] theorem allOneLine_cons {a : Attribute} {attributes : List Attribute} :
    AllOneLine (a :: attributes) ↔ a.OneLine ∧ AllOneLine attributes := by simp [AllOneLine]

@[simp] theorem allOneLine_append {as bs : List Attribute} :
    AllOneLine (as ++ bs) ↔ AllOneLine as ∧ AllOneLine bs := by
  simp [AllOneLine, or_imp, forall_and]

@[simp] theorem oneLine_verbatim {name value : String} :
    (verbatim name value).OneLine ↔ OneLine name ∧ OneLine value := by
  simp [verbatim, Attribute.OneLine]

@[simp] theorem oneLine_quoted {name value : String} :
    (quoted name value).OneLine ↔ OneLine name := by
  simp [quoted, Attribute.OneLine]

theorem AllOneLine.text {attributes : List Attribute} (h : AllOneLine attributes) :
    OneLine (attributesText attributes) := by
  apply oneLine_intercalate (by decide)
  intro s hs
  obtain ⟨a, ha, rfl⟩ := List.mem_map.1 hs
  exact (h a ha).text

/-- Quoted tokens are written on a single line, whatever they hold. -/
theorem allOneLine_quotedArgs (r : Record) (i : Nat) {names : List String}
    (h : ∀ name ∈ names, OneLine name) : AllOneLine (quotedArgs r i names) := by
  intro a ha
  obtain ⟨k, hk, rfl⟩ := List.mem_mapIdx.1 ha
  rw [oneLine_quoted]
  exact h _ (List.getElem_mem hk)

theorem Clause.allOneLine_fill {c : Clause} (hc : ∀ p ∈ c, OneLine p.1) {values : List String}
    (hvalues : ∀ value ∈ values, OneLine value) : AllOneLine (c.fill values) := by
  intro a ha
  rw [fill] at ha
  split at ha
  · cases ha
  · obtain ⟨p, hp, rfl⟩ := List.mem_map.1 ha
    obtain ⟨hplace, hvalue⟩ := List.of_mem_zip hp
    exact ⟨hc _ hplace, fun _ => hvalues _ hvalue⟩

/-! ## Elements -/

/-- What stands in the element is written on a single line. -/
def Ending.OneLine : Ending → Prop
  | .empty => True
  | .opening => True
  | .content text => DeckScript.OneLine text

/-- The element is written on a single line. -/
def Element.OneLine : Element → Prop
  | .tag name attributes slot ending =>
    DeckScript.OneLine name ∧ AllOneLine attributes ∧ (∀ clause ∈ slot, AllOneLine clause) ∧
      ending.OneLine
  | .closing name => DeckScript.OneLine name
  | .comment text => DeckScript.OneLine text

theorem allOneLine_of_mem_some {clause : List Attribute} (h : AllOneLine clause) :
    ∀ slot ∈ some clause, AllOneLine slot := by
  intro slot hslot
  obtain rfl := Option.mem_some.1 hslot
  exact h

theorem Ending.OneLine.text {ending : Ending} (h : ending.OneLine) {name : String}
    (hname : DeckScript.OneLine name) : DeckScript.OneLine (ending.text name) := by
  cases ending with
  | empty =>
    rw [Ending.text]
    decide
  | opening =>
    rw [Ending.text]
    decide
  | content text =>
    have hends : DeckScript.OneLine ">" ∧ DeckScript.OneLine "</" := by decide
    simp only [Ending.text, oneLine_append]
    exact ⟨⟨⟨⟨hends.1, h⟩, hends.2⟩, hname⟩, hends.1⟩

theorem Element.OneLine.text {e : Element} (h : e.OneLine) : DeckScript.OneLine e.text := by
  cases e with
  | closing name =>
    have hends : DeckScript.OneLine "</" ∧ DeckScript.OneLine ">" := by decide
    simp only [Element.text, oneLine_append]
    exact ⟨⟨hends.1, h⟩, hends.2⟩
  | comment text =>
    have hends : DeckScript.OneLine "<!-- " ∧ DeckScript.OneLine " -->" := by decide
    simp only [Element.text, oneLine_append]
    exact ⟨⟨hends.1, h⟩, hends.2⟩
  | tag name attributes slot ending =>
    obtain ⟨hname, hattributes, hslot, hending⟩ := h
    have hmarks : DeckScript.OneLine "<" ∧ DeckScript.OneLine " " := by decide
    simp only [Element.text, oneLine_append]
    refine ⟨⟨?_, ?_⟩, hending.text hname⟩
    · rw [appendClause]
      split
      · exact oneLine_append.2 ⟨hmarks.1, hname⟩
      · simp only [oneLine_append]
        exact ⟨⟨⟨hmarks.1, hname⟩, hmarks.2⟩, hattributes.text⟩
    · cases slot with
      | none => decide
      | some clause => exact oneLine_append.2 ⟨hmarks.2, (hslot clause rfl).text⟩

/-- An element stands between angle brackets. -/
theorem Element.exists_text_eq (e : Element) : ∃ inside, e.text = "<" ++ inside ++ ">" := by
  cases e with
  | closing name =>
    refine ⟨"/" ++ name, ?_⟩
    rw [Element.text, show "</" = "<" ++ "/" from rfl]
    simp only [String.append_assoc]
  | comment text =>
    refine ⟨"!-- " ++ text ++ " --", ?_⟩
    rw [Element.text, show "<!-- " = "<" ++ "!-- " from rfl, show " -->" = " --" ++ ">" from rfl]
    simp only [String.append_assoc]
  | tag name attributes slot ending =>
    obtain ⟨finish, hfinish⟩ : ∃ finish, ending.text name = finish ++ ">" := by
      cases ending with
      | empty => exact ⟨"/", rfl⟩
      | opening => exact ⟨"", rfl⟩
      | content text => exact ⟨">" ++ text ++ "</" ++ name, rfl⟩
    obtain ⟨start, hstart⟩ : ∃ start,
        appendClause ("<" ++ name) (attributesText attributes) = "<" ++ start := by
      rw [appendClause]
      split
      · exact ⟨name, rfl⟩
      · exact ⟨name ++ " " ++ attributesText attributes, by simp only [String.append_assoc]⟩
    have htext (middle : String) :
        "<" ++ start ++ middle ++ (finish ++ ">") = "<" ++ (start ++ middle ++ finish) ++ ">" := by
      simp only [String.append_assoc]
    cases slot with
    | none => exact ⟨_, by simp only [Element.text, hstart, hfinish]; exact htext ""⟩
    | some clause => exact ⟨_, by simp only [Element.text, hstart, hfinish]; exact htext _⟩

end Markup

/-! ## Lines between angle brackets -/

/-- The line holds no break, begins with an angle bracket and ends with one. -/
def IsElementLine (line : String) : Prop :=
  OneLine line ∧ line.toList.head? = some '<' ∧ line.toList.getLast? = some '>'

theorem Markup.Element.OneLine.isElementLine {e : Markup.Element} (h : e.OneLine) :
    IsElementLine e.text := by
  obtain ⟨inside, htext⟩ := e.exists_text_eq
  refine ⟨h.text, ?_, ?_⟩
  · rw [htext]
    simp
  · rw [htext, String.toList_append, show ">".toList = ['>'] from rfl, List.getLast?_concat]

/-- Lines, each with its break behind it. -/
def linesText (lines : List String) : String := String.join (lines.map (· ++ "\n"))

theorem linesText_append (ls ms : List String) :
    linesText (ls ++ ms) = linesText ls ++ linesText ms := by
  simp [linesText]

theorem linesText_map_text (elements : List Markup.Element) :
    linesText (elements.map Markup.Element.text) =
      String.join (elements.map Markup.Element.line) := by
  rw [linesText, List.map_map]
  rfl

/-! ## Directives -/

open Markup

/-- The keywords whose elements are a shaft and its head, or a label and its key. -/
def Vocabulary.pairKeywords : List String :=
  ["arrow", "lcarrow", "rcarrow", "ucarrow", "dcarrow", "legend"]

/-- The keywords whose elements are the strokes of a brace. -/
def Vocabulary.braceKeywords : List String := ["lbrace", "rbrace", "ubrace", "dbrace"]

/-- The keywords of charts. -/
def Vocabulary.chartKeywords : List String := ["chart", "dchart"]

/-- The number of elements that the directive of a keyword adds to the markup itself. -/
def elementCount (keyword : String) : Nat :=
  if keyword ∈ Vocabulary.pairKeywords then 2
  else if keyword ∈ Vocabulary.braceKeywords then 6
  else if keyword ∈ Vocabulary.askingKeywords then 0
  else 1

/-- On a line without breaks the directive of a keyword adds elements without breaks, as many as the
keyword has, or it only nests other records, or it draws a chart. -/
def Directive.WritesAs (d : Directive) (keyword : String) : Prop :=
  ∀ store r request, d.ask store r = .ok request → r.OneLine →
    match request with
    | .emit elements => elements.length = elementCount keyword ∧ ∀ e ∈ elements, e.OneLine
    | .chart _ => keyword ∈ Vocabulary.chartKeywords
    | .enter _ | .fillGrid _ _ => elementCount keyword = 0
    | .set _ _ | .run _ => False

namespace Directive

variable {keyword : String}

theorem writesAs_elements {arity : Arity} {synopsis : String}
    {f : Record → Except Fault (List Element)}
    (h : ∀ r elements, f r = .ok elements → r.OneLine →
      elements.length = elementCount keyword ∧ ∀ e ∈ elements, e.OneLine) :
    (elements arity synopsis f).WritesAs keyword := by
  intro store r request hask hr
  obtain ⟨found, hfound, rfl⟩ := exists_of_ask_eq_ok hask
  exact h r found hfound hr

theorem writesAs_element {arity : Arity} {synopsis : String} {f : Record → Element}
    (hcount : elementCount keyword = 1) (h : ∀ r, r.OneLine → (f r).OneLine) :
    (element arity synopsis f).WritesAs keyword := by
  apply writesAs_elements
  intro r found hfound hr
  obtain rfl := Except.ok.inj hfound
  refine ⟨hcount.symm, fun e he => ?_⟩
  obtain rfl := List.mem_singleton.1 he
  exact h r hr

theorem writesAs_inclusion (hcount : elementCount keyword = 0) : inclusion.WritesAs keyword := by
  intro store r request h _
  obtain ⟨file, -, rfl⟩ := exists_of_map_eq_ok (exists_of_ask_eq_ok h)
  exact hcount

theorem writesAs_grid (hcount : elementCount keyword = 0) : grid.WritesAs keyword := by
  intro store r request h _
  obtain ⟨x, -, h⟩ := exists_of_bind_eq_ok (exists_of_ask_eq_ok h)
  obtain ⟨y, -, h⟩ := exists_of_bind_eq_ok h
  obtain ⟨xStep, -, h⟩ := exists_of_bind_eq_ok h
  obtain ⟨yStep, -, h⟩ := exists_of_bind_eq_ok h
  obtain ⟨limit, -, h⟩ := exists_of_bind_eq_ok h
  obtain ⟨file, -, h⟩ := exists_of_bind_eq_ok h
  obtain rfl := Except.ok.inj h
  exact hcount

theorem writesAs_chart (hkeyword : keyword ∈ Vocabulary.chartKeywords) :
    chart.WritesAs keyword := by
  intro store r request h _
  obtain rfl := Except.ok.inj (exists_of_ask_eq_ok h)
  exact hkeyword

/-! ### Clauses and shapes -/

section Lines

variable {r : Record} (hr : r.OneLine)
include hr

theorem allOneLine_font (i : Nat) : AllOneLine (Clause.font.fill (r.argsFrom i)) :=
  Clause.allOneLine_fill (by decide) (hr.argsFrom i)

theorem allOneLine_spacedFont (i : Nat) : AllOneLine (Clause.spacedFont.fill (r.argsFrom i)) :=
  Clause.allOneLine_fill (by decide) (hr.argsFrom i)

theorem oneLine_textElement {attributes : List Attribute} (h : AllOneLine attributes) (i : Nat) :
    (textElement r attributes i).OneLine := by
  exact ⟨by decide, h, allOneLine_of_mem_some (allOneLine_font hr i), oneLine_shown (hr.arg 1)⟩

theorem oneLine_shapeElement {name : String} (hname : OneLine name) {attributes : List Attribute}
    (h : AllOneLine attributes) {clause : Clause} (hclause : ∀ p ∈ clause, OneLine p.1) (i : Nat) :
    (shapeElement name attributes clause r i).OneLine := by
  refine ⟨hname, ?_, by simp, trivial⟩
  rw [allOneLine_append]
  exact ⟨h, Clause.allOneLine_fill hclause (hr.argsFrom i)⟩

end Lines

/-! ### The families -/

theorem writesAs_deckEntries : ∀ e ∈ deckEntries, e.2.WritesAs e.1 := by
  have hclosing {name keyword : String} (hname : OneLine name)
      (hcount : elementCount keyword = 1) : (closing name).WritesAs keyword :=
    writesAs_element hcount fun _ _ => hname
  simp only [deckEntries, List.forall_mem_cons, List.not_mem_nil, false_implies, implies_true,
    and_true]
  refine ⟨?deck, ?_, ?_, ?_, ?canvas, ?slide, ?_⟩
  case deck => exact writesAs_element (by decide) fun r hr => ⟨by decide, by simp, by simp, trivial⟩
  case canvas =>
    refine writesAs_element (by decide) fun r hr => ⟨by decide, ?_, by simp, trivial⟩
    exact allOneLine_quotedArgs r 1 (by decide)
  case slide =>
    refine writesAs_element (by decide) fun r hr => ⟨by decide, ?_, by simp, trivial⟩
    intro a ha
    obtain ⟨p, hp, rfl⟩ := List.mem_map.1 ha
    obtain ⟨hname, hvalue⟩ := List.of_mem_zip hp
    have hnames : ∀ name ∈ ["bg", "fg"], OneLine name := by decide
    exact oneLine_verbatim.2 ⟨hnames _ hname, hr.argsFrom 1 _ hvalue⟩
  · exact hclosing (by decide) (by decide)
  · exact hclosing (by decide) (by decide)
  · exact hclosing (by decide) (by decide)
  · exact writesAs_inclusion (by decide)

theorem writesAs_text {alignment : List Attribute} (h : AllOneLine alignment)
    (hcount : elementCount keyword = 1) : (text alignment).WritesAs keyword := by
  refine writesAs_element hcount fun r hr => oneLine_textElement hr ?_ 5
  exact allOneLine_append.2 ⟨h, allOneLine_quotedArgs r 2 (by decide)⟩

theorem writesAs_textFile (hcount : elementCount keyword = 1) : textFile.WritesAs keyword := by
  refine writesAs_element hcount fun r hr => ⟨by decide, ?_, ?_, trivial⟩
  · refine allOneLine_cons.2 ⟨oneLine_verbatim.2 ⟨by decide, hr.arg 1⟩, ?_⟩
    exact allOneLine_quotedArgs r 2 (by decide)
  · exact allOneLine_of_mem_some (allOneLine_spacedFont hr 5)

theorem writesAs_rotatedText (hcount : elementCount keyword = 1) :
    rotatedText.WritesAs keyword := by
  refine writesAs_elements fun r found hfound hr => ?_
  split at hfound
  · obtain rfl := Except.ok.inj hfound
    refine ⟨hcount.symm, ?_⟩
    rw [List.forall_mem_singleton]
    exact oneLine_textElement hr (allOneLine_quotedArgs r 2 (by decide)) 6
  · cases hfound

theorem writesAs_textBlock (hcount : elementCount keyword = 1) :
    textBlock.WritesAs keyword := by
  refine writesAs_element hcount fun r hr => oneLine_textElement hr ?_ 6
  exact allOneLine_cons.2 ⟨oneLine_quoted.2 (by decide), allOneLine_quotedArgs r 2 (by decide)⟩

theorem writesAs_textCode (hcount : elementCount keyword = 1) : textCode.WritesAs keyword := by
  refine writesAs_element hcount fun r hr => ⟨by decide, ?_, by simp, trivial⟩
  have hcolor : AllOneLine ((r.argsFrom 6).map (verbatim "color")) := by
    intro a ha
    obtain ⟨value, hvalue, rfl⟩ := List.mem_map.1 ha
    exact oneLine_verbatim.2 ⟨by decide, hr.argsFrom 6 value hvalue⟩
  simp only [List.cons_append, allOneLine_cons, allOneLine_append, oneLine_quoted,
    oneLine_verbatim]
  exact ⟨by decide, ⟨by decide, hr.arg 1⟩, allOneLine_quotedArgs r 2 (by decide), hcolor⟩

theorem writesAs_list {kind : List Attribute} (h : AllOneLine kind)
    (hcount : elementCount keyword = 1) : (list kind).WritesAs keyword := by
  refine writesAs_element hcount fun r hr => ⟨by decide, ?_, ?_, trivial⟩
  · exact allOneLine_append.2 ⟨h, allOneLine_quotedArgs r 1 (by decide)⟩
  · exact allOneLine_of_mem_some (allOneLine_spacedFont hr 4)

theorem writesAs_listItem (hcount : elementCount keyword = 1) : listItem.WritesAs keyword := by
  refine writesAs_element hcount fun r hr => ?_
  have hargs := hr.argsFrom 1
  revert hargs
  -- Without tokens, with the text of the item alone, and with values for its font.
  rcases r.argsFrom 1 with _ | ⟨item, _ | ⟨value, values⟩⟩ <;> intro hargs
  · exact ⟨by decide, by simp, by simp, trivial⟩
  · exact ⟨by decide, by simp, by simp, oneLine_shown (hargs item List.mem_cons_self)⟩
  · refine ⟨by decide, by simp, ?_, oneLine_shown (hargs item List.mem_cons_self)⟩
    apply allOneLine_of_mem_some
    exact Clause.allOneLine_fill (by decide) fun v hv => hargs v (List.mem_cons_of_mem item hv)

theorem writesAs_legend (hcount : elementCount keyword = 2) : legend.WritesAs keyword := by
  refine writesAs_elements fun r found hfound hr => ?_
  obtain ⟨x, -, hfound⟩ := exists_of_bind_eq_ok hfound
  obtain ⟨y, -, hfound⟩ := exists_of_bind_eq_ok hfound
  obtain rfl := Except.ok.inj hfound
  refine ⟨hcount.symm, ?_⟩
  rw [List.forall_mem_cons, List.forall_mem_singleton]
  constructor
  · apply oneLine_textElement hr
    simp only [allOneLine_cons, oneLine_quoted]
    exact ⟨by decide, by decide, by decide, allOneLine_nil⟩
  · refine ⟨by decide, ?_, by simp, trivial⟩
    simp only [allOneLine_cons, oneLine_quoted, oneLine_verbatim]
    exact ⟨by decide, by decide, by decide, by decide, ⟨by decide, hr.arg 6⟩, allOneLine_nil⟩

theorem writesAs_textEntries : ∀ e ∈ textEntries, e.2.WritesAs e.1 := by
  simp only [textEntries, List.forall_mem_cons, List.not_mem_nil, false_implies, implies_true,
    and_true]
  refine ⟨writesAs_text ?_ (by decide), writesAs_text ?_ (by decide), writesAs_text ?_ (by decide),
    writesAs_textFile (by decide), writesAs_rotatedText (by decide), writesAs_textBlock (by decide),
    writesAs_textCode (by decide), writesAs_list ?_ (by decide), writesAs_list ?_ (by decide),
    writesAs_list ?_ (by decide), writesAs_list ?_ (by decide), writesAs_listItem (by decide),
    writesAs_legend (by decide)⟩
  all_goals simp
  all_goals decide

theorem writesAs_imageEntries : ∀ e ∈ imageEntries, e.2.WritesAs e.1 := by
  have hclause {r : Record} (hr : r.OneLine) (i : Nat) :
      AllOneLine (imageClause.fill (r.argsFrom i)) :=
    Clause.allOneLine_fill (by decide) (hr.argsFrom i)
  simp only [imageEntries, List.forall_mem_cons, List.not_mem_nil, false_implies, implies_true,
    and_true]
  refine ⟨?image, ?cimage⟩
  case image =>
    refine writesAs_element (by decide) fun r hr => ⟨by decide, ?_, by simp, trivial⟩
    simp only [List.cons_append, allOneLine_cons, allOneLine_append, oneLine_verbatim]
    exact ⟨⟨by decide, hr.arg 1⟩, allOneLine_quotedArgs r 2 (by decide), hclause hr 6⟩
  case cimage =>
    refine writesAs_element (by decide) fun r hr => ⟨by decide, ?_, by simp, trivial⟩
    simp only [List.cons_append, allOneLine_cons, allOneLine_append, oneLine_verbatim]
    exact ⟨⟨by decide, hr.arg 1⟩, ⟨by decide, oneLine_escape (hr.arg 2)⟩,
      allOneLine_quotedArgs r 3 (by decide), hclause hr 7⟩

theorem writesAs_box {name : String} (hname : OneLine name) (hcount : elementCount keyword = 1) :
    (box name).WritesAs keyword :=
  writesAs_element hcount fun r hr =>
    oneLine_shapeElement hr hname (allOneLine_quotedArgs r 1 (by decide)) (by decide) 5

theorem writesAs_evenBox {name : String} (hname : OneLine name)
    (hcount : elementCount keyword = 1) : (evenBox name).WritesAs keyword := by
  refine writesAs_element hcount fun r hr => oneLine_shapeElement hr hname ?_ (by decide) 4
  rw [allOneLine_append, allOneLine_cons, oneLine_quoted]
  exact ⟨allOneLine_quotedArgs r 1 (by decide), by decide, allOneLine_nil⟩

theorem writesAs_polygon (hcount : elementCount keyword = 1) : polygon.WritesAs keyword := by
  refine writesAs_element hcount fun r hr => oneLine_shapeElement hr (by decide) ?_ (by decide) 3
  simp only [allOneLine_cons, oneLine_verbatim]
  exact ⟨⟨by decide, hr.arg 1⟩, ⟨by decide, hr.arg 2⟩, allOneLine_nil⟩

theorem writesAs_line (hcount : elementCount keyword = 1) : line.WritesAs keyword :=
  writesAs_element hcount fun r hr => oneLine_shapeElement hr (by decide)
    (allOneLine_quotedArgs r 1 (by decide)) (by decide) 5

theorem writesAs_measuredLine {finish : Record → Float → Except Fault (String × String)}
    (hcount : elementCount keyword = 1) : (measuredLine finish).WritesAs keyword := by
  refine writesAs_elements fun r found hfound hr => ?_
  obtain ⟨length, -, hfound⟩ := exists_of_bind_eq_ok hfound
  obtain ⟨ends, -, hfound⟩ := exists_of_bind_eq_ok hfound
  obtain rfl := Except.ok.inj hfound
  refine ⟨hcount.symm, ?_⟩
  rw [List.forall_mem_singleton]
  refine oneLine_shapeElement hr (by decide) ?_ (by decide) 4
  simp only [allOneLine_append, allOneLine_cons, oneLine_quoted]
  exact ⟨allOneLine_quotedArgs r 1 (by decide), by decide, by decide, allOneLine_nil⟩

theorem writesAs_arc (hcount : elementCount keyword = 1) : arc.WritesAs keyword :=
  writesAs_element hcount fun r hr => oneLine_shapeElement hr (by decide)
    (allOneLine_quotedArgs r 1 (by decide)) (by decide) 7

theorem writesAs_curve (hcount : elementCount keyword = 1) : curve.WritesAs keyword :=
  writesAs_element hcount fun r hr => oneLine_shapeElement hr (by decide)
    (allOneLine_quotedArgs r 1 (by decide)) (by decide) 7

theorem writesAs_shapeEntries : ∀ e ∈ shapeEntries, e.2.WritesAs e.1 := by
  simp only [shapeEntries, List.forall_mem_cons, List.not_mem_nil, false_implies, implies_true,
    and_true]
  refine ⟨writesAs_box ?_ ?_, writesAs_box ?_ ?_, writesAs_evenBox ?_ ?_, writesAs_evenBox ?_ ?_,
    writesAs_polygon ?_, writesAs_polygon ?_, writesAs_line ?_, writesAs_measuredLine ?_,
    writesAs_measuredLine ?_, writesAs_arc ?_, writesAs_curve ?_⟩
  all_goals decide

theorem allOneLine_head {r : Record} (hr : r.OneLine) (i : Nat) :
    AllOneLine (ArrowPaint.ofRecord r i).head := by
  simp only [ArrowPaint.head, ArrowPaint.ofRecord, allOneLine_cons, oneLine_verbatim,
    oneLine_quoted]
  exact ⟨⟨by decide, hr.argD _ (by decide)⟩, by decide, allOneLine_nil⟩

/-- A shaft and its head are written on a line each. -/
theorem oneLine_arrowElements {name xEnd yEnd : String} (hname : OneLine name)
    (hx : OneLine xEnd) (hy : OneLine yEnd) {start : List Attribute} (hstart : AllOneLine start)
    (head : Geometry.Arrowhead Float) {r : Record} (hr : r.OneLine) (i : Nat) :
    ∀ e ∈ arrowElements name start xEnd yEnd head (ArrowPaint.ofRecord r i), e.OneLine := by
  have hhead := allOneLine_head hr i
  rw [arrowElements, List.forall_mem_cons, List.forall_mem_singleton]
  constructor
  · refine ⟨hname, ?_, by simp, trivial⟩
    simp only [ArrowPaint.shaft, allOneLine_append, allOneLine_cons, oneLine_quoted]
    exact ⟨⟨hstart, hx, hy, allOneLine_nil⟩, by decide, hhead⟩
  · refine ⟨by decide, ?_, by simp, trivial⟩
    simp only [allOneLine_cons, oneLine_quoted]
    exact ⟨by decide, by decide, hhead⟩

theorem allOneLine_placedPoint {suffix : String} (h : OneLine suffix)
    (p : Geometry.Point Float) : AllOneLine (placedPoint suffix p) := by
  simp only [placedPoint, allOneLine_cons, oneLine_quoted, oneLine_append]
  exact ⟨⟨by decide, h⟩, ⟨by decide, h⟩, allOneLine_nil⟩

theorem oneLine_strokeElement {paint : List Attribute} (hpaint : AllOneLine paint)
    (stroke : Geometry.Stroke Float) : (strokeElement paint stroke).OneLine := by
  have hslot := allOneLine_of_mem_some hpaint
  cases stroke with
  | curve p q s =>
    refine ⟨by decide, ?_, hslot, trivial⟩
    simp only [allOneLine_append]
    exact ⟨⟨allOneLine_placedPoint (by decide) p, allOneLine_placedPoint (by decide) q⟩,
      allOneLine_placedPoint (by decide) s⟩
  | line p q =>
    refine ⟨by decide, ?_, hslot, trivial⟩
    rw [allOneLine_append]
    exact ⟨allOneLine_placedPoint (by decide) p, allOneLine_placedPoint (by decide) q⟩

theorem allOneLine_bracePaint {r : Record} (hr : r.OneLine) {paint : List Attribute}
    (h : bracePaint r = .ok paint) : AllOneLine paint := by
  obtain ⟨width, -, h⟩ := exists_of_bind_eq_ok h
  obtain ⟨opacity, -, h⟩ := exists_of_bind_eq_ok h
  obtain rfl := Except.ok.inj h
  exact Clause.allOneLine_fill (by decide)
    fun value hvalue => hr.argsFrom 6 value (List.mem_of_mem_take hvalue)

theorem writesAs_arrow (hcount : elementCount keyword = 2) : arrow.WritesAs keyword := by
  refine writesAs_elements fun r found hfound hr => ?_
  obtain ⟨x₁, -, hfound⟩ := exists_of_bind_eq_ok hfound
  obtain ⟨y₁, -, hfound⟩ := exists_of_bind_eq_ok hfound
  obtain ⟨x₂, -, hfound⟩ := exists_of_bind_eq_ok hfound
  obtain ⟨y₂, -, hfound⟩ := exists_of_bind_eq_ok hfound
  obtain ⟨width, -, hfound⟩ := exists_of_bind_eq_ok hfound
  obtain ⟨height, -, hfound⟩ := exists_of_bind_eq_ok hfound
  obtain rfl := Except.ok.inj hfound
  exact ⟨hcount.symm, oneLine_arrowElements (by decide) (by decide) (by decide)
    (allOneLine_quotedArgs r 1 (by decide)) _ hr 5⟩

theorem writesAs_curvedArrow {direction : Geometry.Direction}
    (hcount : elementCount keyword = 2) : (curvedArrow direction).WritesAs keyword := by
  refine writesAs_elements fun r found hfound hr => ?_
  obtain ⟨x, -, hfound⟩ := exists_of_bind_eq_ok hfound
  obtain ⟨y, -, hfound⟩ := exists_of_bind_eq_ok hfound
  obtain ⟨width, -, hfound⟩ := exists_of_bind_eq_ok hfound
  obtain ⟨height, -, hfound⟩ := exists_of_bind_eq_ok hfound
  obtain rfl := Except.ok.inj hfound
  exact ⟨hcount.symm, oneLine_arrowElements (by decide) (by decide) (by decide)
    (allOneLine_quotedArgs r 1 (by decide)) _ hr 7⟩

theorem writesAs_braceShape {direction : Geometry.Direction}
    (hcount : elementCount keyword = 6) : (braceShape direction).WritesAs keyword := by
  refine writesAs_elements fun r found hfound hr => ?_
  obtain ⟨x, -, hfound⟩ := exists_of_bind_eq_ok hfound
  obtain ⟨y, -, hfound⟩ := exists_of_bind_eq_ok hfound
  obtain ⟨size, -, hfound⟩ := exists_of_bind_eq_ok hfound
  obtain ⟨width, -, hfound⟩ := exists_of_bind_eq_ok hfound
  obtain ⟨height, -, hfound⟩ := exists_of_bind_eq_ok hfound
  obtain ⟨paint, hpaint, hfound⟩ := exists_of_bind_eq_ok hfound
  obtain rfl := Except.ok.inj hfound
  constructor
  · rw [hcount, List.length_map]
    cases direction <;> rfl
  · intro e he
    obtain ⟨stroke, -, rfl⟩ := List.mem_map.1 he
    exact oneLine_strokeElement (allOneLine_bracePaint hr hpaint) stroke

theorem writesAs_arrowEntries : ∀ e ∈ arrowEntries, e.2.WritesAs e.1 := by
  simp only [arrowEntries, List.forall_mem_cons, List.not_mem_nil, false_implies, implies_true,
    and_true]
  refine ⟨writesAs_arrow ?_, writesAs_curvedArrow ?_, writesAs_curvedArrow ?_,
    writesAs_curvedArrow ?_, writesAs_curvedArrow ?_, writesAs_braceShape ?_,
    writesAs_braceShape ?_, writesAs_braceShape ?_, writesAs_braceShape ?_⟩
  all_goals decide

theorem writesAs_externalEntries : ∀ e ∈ externalEntries, e.2.WritesAs e.1 := by
  simp only [externalEntries, List.forall_mem_cons, List.not_mem_nil, false_implies, implies_true,
    and_true]
  exact ⟨writesAs_grid (by decide), writesAs_chart (by decide), writesAs_chart (by decide)⟩

end Directive

/-- What the directives of the standard vocabulary write on a line without breaks. -/
theorem Vocabulary.writesAs {keyword : String} {d : Directive}
    (h : standard.get? keyword = some d) : d.WritesAs keyword := by
  have hall : ∀ e ∈ standardEntries, e.2.WritesAs e.1 := by
    simp only [standardEntries, List.forall_mem_append]
    exact ⟨⟨⟨⟨⟨Directive.writesAs_deckEntries, Directive.writesAs_textEntries⟩,
      Directive.writesAs_imageEntries⟩, Directive.writesAs_shapeEntries⟩,
      Directive.writesAs_arrowEntries⟩, Directive.writesAs_externalEntries⟩
  exact hall _ (Table.mem_of_get?_ofList h)

end DeckScript
