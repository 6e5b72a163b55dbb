import DeckScript.Proofs.Decomposition

/-!
# Tokens set apart by blanks

A token depends on the text behind it only through where it ends. So it is also a token when nothing
follows it, and when a blank follows it, whatever comes behind the blank. Only a literal that is not
closed would take the blank in. The tokens of a text in which all literals are closed can therefore
be written with a blank between any two of them, and these are again the tokens of what is written.

## Main definitions

* `BeginsLiteral` — the token begins as a literal does

## Main results

* `Reads.setOff` — a token with nothing or a blank behind it
* `tokenChars_intercalate` — the tokens of texts with blanks between them
* `tokenize_intercalate` — the tokens of a line with blanks between them
-/

namespace DeckScript

open Lexeme Text

/-! ## What follows a token -/

namespace Lexeme

/-- If the property leaves no room for blanks, the longest prefix with it is still the longest one
when a blank or nothing follows. -/
theorem IsLongest.setOff {P : List Char → Prop} {t rest u : List Char} (h : IsLongest P t rest)
    (hP : ∀ p, P p → ' ' ∉ p) (hu : ∀ c ∈ u.head?, c = ' ') : IsLongest P t u := by
  refine ⟨h.1, fun p hp hpre => ?_⟩
  cases u with
  | nil =>
    rw [List.append_nil] at hpre
    exact hpre.length_le
  | cons c u =>
    obtain rfl := hu c rfl
    -- A longer prefix would reach over the blank.
    by_contra hlong
    rw [Nat.not_le] at hlong
    have hblank : t ++ [' '] <+: t ++ ' ' :: u := by simp
    have hshort : (t ++ [' ']).length ≤ p.length := by
      rw [List.length_append, List.length_singleton]
      exact hlong
    exact hP p hp ((List.prefix_of_prefix_length_le hblank hpre hshort).subset (by simp))

theorem blank_notMem_of_forall {p : Char → Bool} (hp : p ' ' = false) {t : List Char}
    (ht : ∀ c ∈ t, p c) : ' ' ∉ t := by
  intro hblank
  have := ht ' ' hblank
  rw [hp] at this
  cases this

theorem IsDigits.blank_notMem {t : List Char} (h : IsDigits t) : ' ' ∉ t :=
  blank_notMem_of_forall (p := Char.isDigit) (by decide) h.2

theorem IsNumber.blank_notMem {t : List Char} (h : IsNumber t) : ' ' ∉ t := by
  cases h with
  | hexadecimal hmark _ hds =>
    have hds := blank_notMem_of_forall (by decide) hds
    rcases hmark with rfl | rfl <;> simp [hds]
  | decimal hm he =>
    rw [List.mem_append, not_or]
    constructor
    · cases hm with
      | whole hds => exact hds.blank_notMem
      | fraction hds hfs =>
        have hfs := blank_notMem_of_forall (p := Char.isDigit) (by decide) hfs
        simp [hds.blank_notMem, hfs]
      | point hfs => simp [hfs.blank_notMem]
    · have hne {p : Char → Bool} (hp : p ' ' = false) {c : Char} (hc : p c) : ' ' ≠ c := by
        rintro rfl
        rw [hp] at hc
        cases hc
      cases he with
      | none => simp
      | unsigned hmark hds => simp [hne (by decide) hmark, hds.blank_notMem]
      | signed hmark hsign hds =>
        simp [hne (by decide) hmark, hne (by decide) hsign, hds.blank_notMem]

/-- A single character is one in front of anything that does not make a comment or a number of
it. -/
theorem extent_single_congr {c : Char} {s s' : List Char} (h : (extent c s).1 = .single)
    (hslash : startsWith '/' s' = false) (hstar : startsWith '*' s' = false)
    (hdigit : s'.head?.any Char.isDigit = false) : extent c s' = (.single, 0) := by
  rw [extent] at h
  rw [extent, hslash, hstar, hdigit]
  simp only [Bool.and_false, Bool.false_eq_true, if_false]
  split_ifs at h with hblank hline hblock hquoted hraw hdecimal hpoint
  · split at h <;> cases h
  · rw [if_neg hblank, if_neg hquoted, if_neg hraw, if_neg hdecimal,
      if_neg ‹¬isIdentifierStart c = true›]

/-- A lexeme of more than a single character that is no gap stays one when nothing follows it, and
when a blank follows it unless it is a literal that is not closed. -/
theorem ReadsProper.setOff {kind : Kind} {t rest u : List Char} (h : ReadsProper kind t rest)
    (hkind : kind.isGap = false) (hu : ∀ c ∈ u.head?, c = ' ')
    (hclosed : u = [] ∨ (kind = .quoted → IsClosedLiteral t)) : ReadsProper kind t u := by
  cases h with
  | blank _ | comment _ => cases hkind
  | quoted h =>
    refine .quoted ?_
    rcases hclosed with rfl | hclosed
    -- At the end of the text any literal stops, closed or not.
    · cases h with
      | closed h => exact .closed h
      | quoted hq hbody _ => exact .quoted hq hbody .finish
      | raw hbody => exact .raw hbody
    · exact .closed (hclosed rfl)
  | number h => exact .number (h.setOff (fun p hp => hp.blank_notMem) hu)
  | identifier h =>
    refine .identifier (h.setOff ?_ hu)
    rintro _ ⟨c, word, rfl, hc, hword⟩
    have hword := blank_notMem_of_forall (by decide +kernel) hword
    have hc : ' ' ≠ c := by
      rintro rfl
      exact absurd hc (by decide +kernel)
    simp [hc, hword]

/-- A token stays one of the same kind when nothing follows it, and when a blank follows it unless
it is a literal that is not closed. -/
theorem Reads.setOff {kind : Kind} {t rest u : List Char} (h : Reads kind t rest)
    (hkind : kind.isGap = false) (hu : ∀ c ∈ u.head?, c = ' ')
    (hclosed : u = [] ∨ (kind = .quoted → IsClosedLiteral t)) : Reads kind t u := by
  obtain h | ⟨rfl, hlength, hnone⟩ := h
  · exact .inl (h.setOff hkind hu hclosed)
  · obtain ⟨c, rfl⟩ := List.length_eq_one_iff.1 hlength
    have hextent := reads_cons_iff.1 (.inr ⟨rfl, hlength, hnone⟩ : Reads .single [c] rest)
    -- A blank makes neither a comment of a slash nor a number of a point.
    have hhead {d : Char} (hd : d ≠ ' ') : startsWith d u = false := by
      rw [startsWith, decide_eq_false_iff_not]
      exact fun hhead => hd (hu d hhead)
    have hdigit : u.head?.any Char.isDigit = false := by
      cases u with
      | nil => rfl
      | cons d u =>
        obtain rfl := hu d rfl
        rfl
    exact reads_cons_iff.2 (extent_single_congr (congrArg Prod.fst hextent) (hhead (by decide))
      (hhead (by decide)) hdigit)

end Lexeme

/-! ## Tokens on their own, and with blanks between them -/

theorem tokenChars_of_reads {kind : Kind} {t rest : List Char} (h : Reads kind t rest)
    (hkind : kind.isGap = false) : tokenChars t = [t] := by
  have halone := (h.setOff (u := []) hkind (by simp) (.inl rfl)).tokenChars_append
  rwa [List.append_nil, hkind, if_neg Bool.false_ne_true, tokenChars_nil] at halone

/-- The characters with which a literal begins. -/
def BeginsLiteral (token : String) : Prop :=
  ∃ c ∈ token.toList.head?, IsQuote c ∨ c = backquote

theorem any_head?_iff_beginsLiteral (token : String) :
    token.toList.head?.any (fun c => IsQuote c ∨ c = backquote) ↔ BeginsLiteral token := by
  simp [BeginsLiteral, Option.any_eq_true]

instance : DecidablePred BeginsLiteral := fun token =>
  decidable_of_iff _ (any_head?_iff_beginsLiteral token)

/-- A token that is written in front of a blank is cut off by it. -/
theorem tokenChars_append_blank_of_mem {text token : String} (h : token ∈ tokenize text)
    (hclosed : BeginsLiteral token → IsClosedLiteral token.toList) (u : List Char) :
    tokenChars (token.toList ++ ' ' :: u) = token.toList :: tokenChars u := by
  obtain ⟨kind, rest, hkind, hreads⟩ := exists_reads_of_mem_tokenize h
  have hquoted : kind = .quoted → IsClosedLiteral token.toList := by
    rintro rfl
    obtain ⟨c, word, htoken, hextent⟩ := hreads.exists_cons
    refine hclosed ⟨c, ?_, isQuote_or_of_extent (congrArg Prod.fst hextent)⟩
    rw [htoken]
    rfl
  have hblank := hreads.setOff (u := ' ' :: u) hkind (by simp) (.inr hquoted)
  rw [hblank.tokenChars_append, hkind, tokenChars_cons_of_isWhiteSpace (by decide)]
  rfl

/-- With a blank between any two texts, each of which is cut off by a blank, the tokens are those of
the texts in order. -/
theorem tokenChars_intercalate {pieces : List String}
    (h : ∀ piece ∈ pieces, ∀ u : List Char, tokenChars (piece.toList ++ ' ' :: u) =
      tokenChars piece.toList ++ tokenChars u) :
    tokenChars (" ".intercalate pieces).toList =
      pieces.flatMap fun piece => tokenChars piece.toList := by
  induction pieces with
  | nil => simp
  | cons piece rest ih =>
    obtain ⟨hpiece, hrest⟩ := List.forall_mem_cons.1 h
    cases rest with
    | nil => simp
    | cons next rest =>
      have htext : (" ".intercalate (piece :: next :: rest)).toList =
          piece.toList ++ ' ' :: (" ".intercalate (next :: rest)).toList := by
        rw [String.intercalate_cons_cons]
        simp
      rw [htext, hpiece, ih hrest]
      rfl

theorem tokenChars_of_mem {text token : String} (h : token ∈ tokenize text) :
    tokenChars token.toList = [token.toList] := by
  obtain ⟨kind, behind, hkind, hreads⟩ := exists_reads_of_mem_tokenize h
  exact tokenChars_of_reads hreads hkind

theorem tokenize_intercalate_of_mem {text : String} {tokens : List String}
    (h : ∀ token ∈ tokens, token ∈ tokenize text)
    (hclosed : ∀ token ∈ tokens, BeginsLiteral token → IsClosedLiteral token.toList) :
    tokenChars (" ".intercalate tokens).toList = tokens.map String.toList := by
  have hpieces : ∀ token ∈ tokens, ∀ u : List Char,
      tokenChars (token.toList ++ ' ' :: u) = tokenChars token.toList ++ tokenChars u := by
    intro token htoken u
    rw [tokenChars_append_blank_of_mem (h token htoken) (hclosed token htoken),
      tokenChars_of_mem (h token htoken)]
    rfl
  rw [tokenChars_intercalate hpieces, List.map_eq_flatMap]
  exact List.flatMap_congr fun token htoken => tokenChars_of_mem (h token htoken)

/-! ## Names and the sign behind them -/

/-- An identifier is cut off by whatever cannot be a part of it. -/
theorem IsIdentifier.tokenChars_append_cons {word : String} (h : IsIdentifier word) {d : Char}
    (hd : isIdentifierPart d = false) (rest : List Char) :
    tokenChars (word.toList ++ d :: rest) = word.toList :: tokenChars (d :: rest) := by
  obtain ⟨c, cs, hword, hc, hcs⟩ := h
  have hextent : extent c (cs ++ d :: rest) = (.identifier, cs.length) := by
    rw [extent_of_isIdentifierStart hc, runLength_append_cons hcs hd]
  rw [hword, List.cons_append, tokenChars_of_extent hextent]
  rfl

/-- An identifier is cut off by the blank behind it. -/
theorem IsIdentifier.tokenChars_append {word : String} (h : IsIdentifier word) (rest : List Char) :
    tokenChars (word.toList ++ ' ' :: rest) = word.toList :: tokenChars rest := by
  rw [h.tokenChars_append_cons isIdentifierPart_blank, tokenChars_cons_of_isWhiteSpace (by decide)]

/-- Nothing is joined to an equals sign. -/
theorem tokenChars_equals (rest : List Char) :
    tokenChars ('=' :: rest) = ['='] :: tokenChars rest := by
  have hstart : isIdentifierStart '=' = false := by decide +kernel
  have hextent : extent '=' ([] ++ rest) = (.single, ([] : List Char).length) := by
    rw [extent, hstart]
    rfl
  have htokens := tokenChars_of_extent hextent
  rwa [List.nil_append] at htokens

/-! ## Lines -/

/-- Each token of a line is the only token of its own text. If all literals of the line are closed
by their own delimiters, then the tokens are also those of the line that is made of them with a
blank between any two. -/
theorem tokenize_intercalate (text : String) :
    (∀ token ∈ tokenize text, tokenize token = [token]) ∧
      ((∀ token ∈ tokenize text, BeginsLiteral token → IsClosedLiteral token.toList) →
        tokenize (" ".intercalate (tokenize text)) = tokenize text) := by
  constructor
  · intro token htoken
    obtain ⟨kind, rest, hkind, hreads⟩ := exists_reads_of_mem_tokenize htoken
    rw [tokenize_eq_map_tokenChars, tokenChars_of_reads hreads hkind]
    simp
  · intro hclosed
    rw [tokenize_eq_map_tokenChars (" ".intercalate _),
      tokenize_intercalate_of_mem (fun _ h => h) hclosed, List.map_map]
    simp

/-- A comment is dropped between two tokens that have no blank between them. -/
theorem tokenize_intercalate_label :
    let text := "label=\"x\"/*c*/.5//d"
    tokenize text = ["label", "=", "\"x\"", ".5"] ∧
      (∀ token ∈ tokenize text, BeginsLiteral token → IsClosedLiteral token.toList) ∧
      tokenize "label = \"x\" .5" = ["label", "=", "\"x\"", ".5"] := by
  intro text
  have htokens : tokenize text = ["label", "=", "\"x\"", ".5"] := by decide +kernel
  have hclosed : ∀ token ∈ tokenize text, BeginsLiteral token → IsClosedLiteral token.toList := by
    have hliteral : ∀ token ∈ tokenize text, BeginsLiteral token → token = "\"x\"" := by
      rw [htokens]
      decide +kernel
    intro token htoken hbegins
    rw [hliteral token htoken hbegins]
    exact .quoted (.inl rfl) (.plain (by decide) (by decide) .nil)
  refine ⟨htokens, hclosed, ?_⟩
  have hblanks := (tokenize_intercalate text).2 hclosed
  rwa [htokens] at hblanks

end DeckScript
