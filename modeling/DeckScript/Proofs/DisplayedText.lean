import DeckScript.Proofs.BoundWords
import DeckScript.Proofs.Entities
import DeckScript.Proofs.FileLoops

/-!
# Displayed text

Seven keywords put a text of their line into the markup. The token that holds the text is the first
one behind the keyword, and nothing but the content of one element depends on it: whether the line
is good, the attributes of the element and the elements behind it are decided by the other tokens.

The content is the token without its first and last character, escaped. For a literal between two
delimiters these are the delimiters, and nothing is lost. But they are taken off whatever they are,
and of a token of less than three bytes nothing is left at all: numbers, names and literals that are
not closed lose characters of their own.

## Main definitions

* `textKeywords`, `TextArguments` — the keywords, and the other tokens that they take
* `TextFrame` — what a line with a text adds to the markup, but for the text
* `drawText`, `Record.Shows` — adding a text in its frame
* `IsPaired`, `IsOpenLiteral`, `Undelimited` — a text without the delimiters that it carries

## Main results

* `exists_framesText` — the text of a line becomes the content of an element, and nothing else
* `shown_eq_escape_iff` — when nothing but delimiters is taken off
* `text_loses_ends` — the content of a text element, for every token that it can show
-/

namespace DeckScript

open Markup Lexeme

/-! ## Frames -/

/-- The keywords whose lines show a text. -/
def textKeywords : List String := ["text", "ctext", "etext", "rtext", "textblock", "li", "legend"]

/-- The tokens behind the text are enough, and numbers where the keyword reads numbers. -/
def TextArguments (keyword : String) (others : List String) : Prop :=
  match keyword with
  | "li" => True
  | "rtext" => 4 ≤ others.length ∧ Directive.isRotation (others.getD 2 "")
  | "textblock" => 4 ≤ others.length
  | "legend" => 5 ≤ others.length ∧ (Number.parse? (others.getD 0 "")).isSome ∧
      (Number.parse? (others.getD 1 "")).isSome
  | _ => 3 ≤ others.length

/-- What a line with a text adds to the markup, but for the text. -/
structure TextFrame where
  name : String
  attributes : List Attribute
  slot : Option (List Attribute)
  /-- The elements behind the one with the text. -/
  others : List Element

/-- The elements of a line with its text, which is escaped already, in place. -/
def TextFrame.elements (frame : TextFrame) (content : String) : List Element :=
  .tag frame.name frame.attributes frame.slot (.content content) :: frame.others

variable {φ : Type}

/-- Add an escaped text to the markup in its frame, or put the fault of a line into the report. -/
def drawText (line : Nat) (frame : Except Fault TextFrame) (content : String) : Step φ :=
  draw line (frame.map fun f => f.elements content)

theorem Arity.accepts_atLeast {n m : Nat} : (atLeast n).accepts m ↔ n ≤ m := by
  rw [atLeast, accepts, Option.all_none, Bool.and_true, decide_eq_true_eq]

namespace Directive

/-- On the lines of a keyword the directive shows the second token, in a frame that the tokens
behind it decide. It takes those that satisfy `accepts`. -/
def ShowsText (d : Directive) (keyword : String) (accepts : List String → Prop) : Prop :=
  ∃ frame : List String → Except Fault TextFrame,
    (∀ others, (∃ f, frame others = .ok f) ↔ accepts others) ∧
    ∀ store (r : Record) token others, r.tokens = keyword :: token :: others →
      d.ask store r = (frame others).map fun f => .emit (f.elements (shown token))

variable {keyword : String} {accepts : List String → Prop}

theorem showsText_of_markup {d : Directive} {f : Record → Except Fault (List Element)}
    (frame : List String → Except Fault TextFrame) (hd : d.effect = .markup f)
    (hf : ∀ line keyword token others text, f ⟨line, keyword :: token :: others, text⟩ =
      (frame others).map fun g => g.elements (shown token))
    (haccepts : ∀ others, d.arity.accepts (others.length + 2) ∧ (∃ f, frame others = .ok f) ↔
      accepts others) : d.ShowsText keyword accepts := by
  refine ⟨fun others => if d.arity.accepts (others.length + 2) then frame others
    else .error (.arity keyword d.synopsis), fun others => ?_, ?_⟩
  · rw [← haccepts]
    by_cases harity : d.arity.accepts (others.length + 2)
    · simp only [harity, if_true, true_and]
    · simp [harity]
  · -- The number of tokens is looked at before anything else, and so it is in the frame.
    rintro store ⟨line, tokens, text⟩ token others rfl
    rw [ask, hd]
    simp only [hf]
    change (if d.arity.accepts (others.length + 2) then _ else _) = _
    split
    · cases frame others <;> rfl
    · rfl

/-- A line of tokens of which those behind the text matter. -/
def probe (others : List String) : Record := ⟨0, "" :: "" :: others, ""⟩

theorem showsText_element {arity : Arity} {synopsis : String} {f : Record → Element} {least : Nat}
    (frame : List String → TextFrame) (hf : ∀ line keyword token others text,
      [f ⟨line, keyword :: token :: others, text⟩] = (frame others).elements (shown token))
    (harity : arity = .atLeast (least + 2)) :
    (element arity synopsis f).ShowsText keyword fun others => least ≤ others.length := by
  refine showsText_of_markup (fun others => .ok (frame others)) rfl ?_ fun others => ?_
  · intro line keyword token others text
    exact congrArg Except.ok (hf line keyword token others text)
  · subst harity
    simp [element, Arity.accepts_atLeast]

theorem showsText_text (alignment : List Attribute) :
    (text alignment).ShowsText keyword fun others => 3 ≤ others.length :=
  showsText_element (fun others => ⟨"text",
    alignment ++ quotedArgs (probe others) 2 ["xp", "yp", "sp"],
    some (Clause.font.fill (others.drop 3)), []⟩) (fun _ _ _ _ _ => rfl) rfl

theorem showsText_textBlock : textBlock.ShowsText keyword fun others => 4 ≤ others.length :=
  showsText_element (fun others => ⟨"text",
    quoted "type" "block" :: quotedArgs (probe others) 2 ["xp", "yp", "wp", "sp"],
    some (Clause.font.fill (others.drop 4)), []⟩) (fun _ _ _ _ _ => rfl) rfl

theorem showsText_rotatedText : rotatedText.ShowsText keyword fun others =>
    4 ≤ others.length ∧ isRotation (others.getD 2 "") := by
  refine showsText_of_markup (fun others =>
    if isRotation (others.getD 2 "") then
      .ok ⟨"text", quotedArgs (probe others) 2 ["xp", "yp", "rotation", "sp"],
        some (Clause.font.fill (others.drop 4)), []⟩
    else .error (.rotation (others.getD 2 ""))) rfl ?_ fun others => ?_
  · intro line keyword token others text
    change (if isRotation (others.getD 2 "") then _ else _) = _
    split <;> rfl
  · change (Arity.atLeast (4 + 2)).accepts _ ∧ _ ↔ _
    rw [Arity.accepts_atLeast, Nat.add_le_add_iff_right]
    refine and_congr_right fun _ => ?_
    split
    · rename_i hangle
      simpa using hangle
    · rename_i hangle
      simpa using hangle

theorem showsText_listItem : listItem.ShowsText keyword fun _ => True := by
  refine showsText_of_markup (fun others => .ok ⟨"li", [],
    if others.isEmpty then none else some (Clause.font.fill others), []⟩) rfl ?_ fun others => ?_
  · rintro line keyword token (_ | ⟨value, values⟩) text <;> rfl
  · simp [listItem, element, Arity.accepts, Arity.any]

theorem showsText_legend : legend.ShowsText keyword fun others =>
    5 ≤ others.length ∧ (Number.parse? (others.getD 0 "")).isSome ∧
      (Number.parse? (others.getD 1 "")).isSome := by
  refine showsText_of_markup (fun others => do
    let x ← number (others.getD 0 "")
    let y ← number (others.getD 1 "")
    let r := probe others
    return ⟨"text",
      [quoted "xp" (Number.text (x + 2)), quoted "yp" (r.arg 3), quoted "sp" (r.arg 4)],
      some (Clause.font.fill (others.drop 3)),
      [.tag "ellipse"
        [quoted "xp" (r.arg 2), quoted "yp" (Number.text (y + 0.5)), quoted "wp" (r.arg 4),
         quoted "hr" "100", verbatim "color" (r.arg 6)]
        none .empty]⟩) rfl ?_ fun others => ?_
  · intro line keyword token others text
    change (number (others.getD 0 "") >>= fun x => number (others.getD 1 "") >>= fun y => _) = _
    cases number (others.getD 0 "") with
    | error f => rfl
    | ok x =>
      cases number (others.getD 1 "") with
      | error f => rfl
      | ok y => rfl
  · change (Arity.atLeast (5 + 2)).accepts _ ∧ _ ↔ _
    rw [Arity.accepts_atLeast, Nat.add_le_add_iff_right]
    refine and_congr_right fun _ => ?_
    simp only [number]
    cases Number.parse? (others.getD 0 "") with
    | none => simp [bind, Except.bind]
    | some x =>
      cases Number.parse? (others.getD 1 "") with
      | none => simp [bind, Except.bind]
      | some y => simp [bind, Except.bind, pure, Except.pure]

/-- The keywords of texts show them in a frame. -/
theorem exists_showsText : ∀ keyword ∈ textKeywords, ∃ d,
    Vocabulary.standard.get? keyword = some d ∧ d.ShowsText keyword (TextArguments keyword) := by
  simp only [textKeywords, List.forall_mem_cons, List.not_mem_nil, false_implies, implies_true,
    and_true]
  exact ⟨⟨_, rfl, showsText_text _⟩, ⟨_, rfl, showsText_text _⟩, ⟨_, rfl, showsText_text _⟩,
    ⟨_, rfl, showsText_rotatedText⟩, ⟨_, rfl, showsText_textBlock⟩, ⟨_, rfl, showsText_listItem⟩,
    ⟨_, rfl, showsText_legend⟩⟩

end Directive

/-- Carried out in any state, the record adds an escaped text to the markup, in the frame that the
tokens behind its text decide, or it is faulty because they do not. -/
def Record.Shows (φ : Type) [FileStore φ] (env : Environment)
    (frame : List String → Except Fault TextFrame) (r : Record) (content : String) : Prop :=
  ∀ n (w : World φ), dispatch env (n + 1) r w =
    drawText r.line (frame (r.argsFrom 2)) content (announce env r w)

/-- `frame` gives the frames of a keyword's lines: they exist for the tokens that the keyword takes
behind the text, and the text of a line is shown in its frame. -/
structure FramesText (φ : Type) [FileStore φ] (env : Environment) (keyword : String)
    (frame : List String → Except Fault TextFrame) : Prop where
  exists_iff : ∀ others, (∃ f, frame others = .ok f) ↔ TextArguments keyword others
  shows : ∀ (r : Record) token others, r.tokens = keyword :: token :: others →
    r.Shows φ env frame (shown token)

/-- The text of a line becomes the content of an element, and nothing else depends on it. -/
theorem exists_framesText [FileStore φ] {env : Environment} (hstandard : env.vocabulary = .standard)
    {keyword : String} (hkeyword : keyword ∈ textKeywords) :
    ∃ frame, FramesText φ env keyword frame := by
  obtain ⟨d, hd, frame, hframe, hask⟩ := Directive.exists_showsText keyword hkeyword
  refine ⟨frame, hframe, fun r token others htokens n w => ?_⟩
  have hword : r.keyword = keyword := by rw [Record.keyword, Record.arg, htokens]; rfl
  have hothers : r.argsFrom 2 = others := by rw [Record.argsFrom, htokens]; rfl
  rw [dispatch_succ, execute, hstandard, hword, hd, hothers]
  simp only [hask _ r token others htokens]
  cases frame others with
  | error fault => rfl
  | ok f => rfl

/-! ## Tokens without their ends -/

namespace Markup

theorem length_le_utf8ByteSize (cs : List Char) :
    cs.length ≤ (String.ofList cs).utf8ByteSize := by
  induction cs with
  | nil => exact Nat.zero_le _
  | cons c cs ih =>
    have hc := c.utf8Size_pos
    rw [String.ofList_cons, String.utf8ByteSize_append, String.utf8ByteSize_singleton,
      List.length_cons]
    omega

/-- A token of less than three bytes has nothing between its first and its last character. -/
theorem shown_eq (token : String) : shown token = escape (Literal.inner token) := by
  rw [shown]
  split
  · rename_i hsize
    have hlength := length_le_utf8ByteSize token.toList
    rw [String.ofList_toList] at hlength
    have hinner : (token.toList.drop 1).dropLast = [] := by
      rw [← List.length_eq_zero_iff, List.length_dropLast, List.length_drop]
      omega
    rw [Literal.inner, hinner]
    rfl
  · rfl

end Markup

/-! ## Delimiters -/

/-- The character delimits literals. -/
def IsDelimiter (c : Char) : Prop := IsQuote c ∨ c = backquote

instance : DecidablePred IsDelimiter := fun c =>
  inferInstanceAs (Decidable (IsQuote c ∨ c = backquote))

/-- A literal that runs on to its end: a delimiter, and behind it nothing that closes it. -/
inductive IsOpenLiteral : List Char → Prop
  | quoted {q : Char} {inside : List Char} : IsQuote q → IsEscaped q inside →
    IsOpenLiteral (q :: inside)
  | raw {inside : List Char} : backquote ∉ inside → IsOpenLiteral (backquote :: inside)

/-- The text is what stands between two of the same delimiter, with them. -/
def IsPaired (s inside : List Char) : Prop := ∃ d, IsDelimiter d ∧ s = d :: (inside ++ [d])

/-- What a text is without the delimiters that it carries: the pair at its ends, or the first one
of a literal that is not closed, or none. -/
inductive Undelimited : List Char → List Char → Prop
  | pair {s inside : List Char} : IsPaired s inside → Undelimited s inside
  | opened {d : Char} {inside : List Char} : IsOpenLiteral (d :: inside) →
    Undelimited (d :: inside) inside
  | bare {s : List Char} : (∀ inside, ¬ IsPaired s inside) → ¬ IsOpenLiteral s → Undelimited s s

theorem exists_undelimited (s : List Char) : ∃ inside, Undelimited s inside := by
  by_cases hpair : ∃ inside, IsPaired s inside
  · obtain ⟨inside, hinside⟩ := hpair
    exact ⟨inside, .pair hinside⟩
  · by_cases hopen : IsOpenLiteral s
    · cases hopen with
      | quoted hq hinside => exact ⟨_, .opened (.quoted hq hinside)⟩
      | raw hinside => exact ⟨_, .opened (.raw hinside)⟩
    · exact ⟨s, .bare (not_exists.1 hpair) hopen⟩

/-- A text that does not begin with a delimiter carries none. -/
theorem undelimited_cons {c : Char} {s : List Char} (hc : ¬ IsDelimiter c) :
    Undelimited (c :: s) (c :: s) := by
  apply Undelimited.bare
  · rintro inside ⟨d, hd, heq⟩
    obtain ⟨rfl, -⟩ := List.cons.inj heq
    exact hc hd
  · intro hopen
    cases hopen with
    | quoted hq _ => exact hc (.inl hq)
    | raw _ => exact hc (.inr rfl)

theorem IsPaired.dropLast_drop {s inside : List Char} (h : IsPaired s inside) :
    (s.drop 1).dropLast = inside := by
  obtain ⟨d, -, rfl⟩ := h
  rw [List.drop_succ_cons, List.drop_zero, List.dropLast_concat]

theorem eq_nil_of_dropLast_eq {α : Type*} {l : List α} (h : l.dropLast = l) : l = [] := by
  have hlength := congrArg List.length h
  rw [List.length_dropLast] at hlength
  exact List.length_eq_zero_iff.1 (by omega)

/-- Of a text without its first and last character nothing but delimiters is missing if and only if
they are a pair, or if it is nothing but delimiters. -/
theorem Undelimited.dropLast_drop_eq_iff {s inside : List Char} (h : Undelimited s inside) :
    (s.drop 1).dropLast = inside ↔ inside = [] ∨ IsPaired s inside := by
  constructor
  · intro heq
    cases h with
    | pair hpair => exact .inr hpair
    | opened _ => exact .inl (eq_nil_of_dropLast_eq heq)
    | bare _ _ =>
      -- A text that stays the same without its first character has none.
      left
      have hlength := congrArg List.length heq
      rw [List.length_dropLast, List.length_drop] at hlength
      exact List.length_eq_zero_iff.1 (by omega)
  · rintro (rfl | hpair)
    · cases h with
      | pair hpair => exact hpair.dropLast_drop
      | opened _ => rfl
      | bare _ _ => rfl
    · exact hpair.dropLast_drop

/-- The markup shows a token without the delimiters that it carries if and only if they are a pair,
or if it is nothing but delimiters. -/
theorem shown_eq_escape_iff {token : String} {inside : List Char}
    (h : Undelimited token.toList inside) :
    shown token = escape (String.ofList inside) ↔ inside = [] ∨ IsPaired token.toList inside := by
  rw [shown_eq, escape_injective.eq_iff, Literal.inner, String.ofList_inj, h.dropLast_drop_eq_iff]

/-! ## Lines with a text -/

/-- The text of a line becomes the content of an element, in a frame that the tokens behind it
decide. The content is the escaped token without its first and last character. These are the
delimiters that the token carries if and only if it stands between two of the same one; a token that
does not loses characters of its own, unless it is nothing but a delimiter. -/
theorem text_loses_ends [FileStore φ] {env : Environment} (hstandard : env.vocabulary = .standard)
    {keyword : String} (hkeyword : keyword ∈ textKeywords) :
    ∃ frame : List String → Except Fault TextFrame,
      (∀ others, (∃ f, frame others = .ok f) ↔ TextArguments keyword others) ∧
      ∀ (r : Record) token others, r.tokens = keyword :: token :: others →
        ∃ content, r.Shows φ env frame content ∧
          content = escape (String.ofList (token.toList.drop 1).dropLast) ∧
          (∃ inside, Undelimited token.toList inside) ∧
          ∀ inside, Undelimited token.toList inside →
            (content = escape (String.ofList inside) ↔
              inside = [] ∨ IsPaired token.toList inside) := by
  obtain ⟨frame, hframe⟩ := exists_framesText (φ := φ) hstandard hkeyword
  refine ⟨frame, hframe.exists_iff, fun r token others htokens => ?_⟩
  refine ⟨shown token, hframe.shows r token others htokens, shown_eq token,
    exists_undelimited _, fun inside hinside => shown_eq_escape_iff hinside⟩

theorem text_loses_ends_quoted_item :
    bareEnvironment.vocabulary = .standard ∧ "li" ∈ textKeywords ∧
      IsPaired "\"a&b\"".toList "a&b".toList ∧
      ∃ (frame : List String → Except Fault TextFrame) (content : String),
        content = "a&amp;b" ∧ Record.Shows MemoryFiles bareEnvironment frame
          ⟨1, ["li", "\"a&b\""], "li \"a&b\""⟩ content := by
  have hstandard : bareEnvironment.vocabulary = .standard := rfl
  have hkeyword : "li" ∈ textKeywords := by decide
  have hpair : IsPaired "\"a&b\"".toList "a&b".toList := ⟨'"', .inl (.inl rfl), by decide⟩
  obtain ⟨frame, -, hshows⟩ := text_loses_ends (φ := MemoryFiles) hstandard hkeyword
  obtain ⟨content, hcontents, -, -, hcontent⟩ :=
    hshows ⟨1, ["li", "\"a&b\""], "li \"a&b\""⟩ "\"a&b\"" [] rfl
  refine ⟨hstandard, hkeyword, hpair, frame, content, ?_, hcontents⟩
  rw [(hcontent _ (.pair hpair)).2 (.inr hpair)]
  decide

/-- A name and the numbers of a loop lose their first and last characters, and a literal that is not
closed loses its last one with the delimiter. -/
theorem bare_text_loses_ends :
    let drawn := fun text =>
      (compile bareEnvironment 1 (.ofText text) (bareWorld .empty)).2.output.text
    Undelimited "hello".toList "hello".toList ∧ drawn "li hello\n" = "<li>ell</li>\n" ∧
      Undelimited "100".toList "100".toList ∧
      drawn "for i = 100 101\nli i\nefor\n" = "<li>0</li>\n<li>0</li>\n" ∧
      Undelimited "\"abc".toList "abc".toList ∧ drawn "li \"abc\n" = "<li>ab</li>\n" := by
  intro drawn
  have hescaped : IsEscaped '"' "abc".toList := isEscaped_of_all (by decide)
  refine ⟨undelimited_cons (by decide), by decide +kernel, undelimited_cons (by decide),
    by decide +kernel, .opened (.quoted (.inl rfl) hescaped), by decide +kernel⟩

end DeckScript
