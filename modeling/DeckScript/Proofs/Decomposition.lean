import DeckScript.Proofs.LexemeForms

/-!
# The text between the tokens

A text is made up of its tokens and of gaps: one in front of each token and one behind the last.
A gap is white space and comments, and nothing else of the text is left out. Since every token has
its form in front of what follows it, this takes the text apart in one way only, and the tokens of a
text are those that it is taken apart into.

## Main definitions

* `IsGap` — white space and comments in front of what follows them
* `Decomposes` — a text is made up of tokens and gaps

## Main results

* `decomposes_iff` — a text is made up of its tokens and of no others
* `tokenize_decomposes` — so is every line, and its tokens are of one kind each
-/

namespace DeckScript

open Lexeme Text

/-- A gap in front of what follows it: white space and comments, one behind the other. -/
inductive IsGap : List Char → List Char → Prop
  | nil {rest : List Char} : IsGap [] rest
  | cons {kind : Kind} {t gap rest : List Char} : kind.isGap → Reads kind t (gap ++ rest) →
    IsGap gap rest → IsGap (t ++ gap) rest

/-- The text is made up of the tokens, with a gap in front of each one and a gap at the end. -/
inductive Decomposes : List Char → List (List Char) → Prop
  | finish {gap : List Char} : IsGap gap [] → Decomposes gap []
  | token {kind : Kind} {gap t s : List Char} {ts : List (List Char)} : IsGap gap (t ++ s) →
    kind.isGap = false → Reads kind t s → Decomposes s ts → Decomposes (gap ++ (t ++ s)) (t :: ts)

/-! ## From a text to its tokens -/

theorem Lexeme.Reads.tokenChars_append {kind : Kind} {t rest : List Char} (h : Reads kind t rest) :
    tokenChars (t ++ rest) = (if kind.isGap then [] else [t]) ++ tokenChars rest := by
  obtain ⟨c, word, rfl, hextent⟩ := h.exists_cons
  exact tokenChars_of_extent hextent

theorem IsGap.tokenChars_append {gap rest : List Char} (h : IsGap gap rest) :
    tokenChars (gap ++ rest) = tokenChars rest := by
  induction h with
  | nil => rfl
  | cons hkind hreads _ ih =>
    rw [List.append_assoc, hreads.tokenChars_append, if_pos hkind, List.nil_append, ih]

theorem Decomposes.tokenChars_eq {s : List Char} {ts : List (List Char)} (h : Decomposes s ts) :
    tokenChars s = ts := by
  induction h with
  | finish hgap =>
    have := hgap.tokenChars_append
    rwa [List.append_nil, tokenChars_nil] at this
  | token hgap hkind hreads _ ih =>
    rw [hgap.tokenChars_append, hreads.tokenChars_append, hkind, ih]
    rfl

/-! ## From the tokens to the text -/

/-- A gap in front of a text goes into its first gap. -/
theorem Decomposes.gap {kind : Kind} {t s : List Char} {ts : List (List Char)}
    (h : Decomposes s ts) (hkind : kind.isGap) (hreads : Reads kind t s) :
    Decomposes (t ++ s) ts := by
  cases h with
  | finish hgap =>
    refine .finish (.cons hkind ?_ hgap)
    rwa [List.append_nil]
  | token hgap hkind' hreads' hrest =>
    rw [← List.append_assoc]
    exact .token (.cons hkind hreads hgap) hkind' hreads' hrest

theorem Lexeme.reads_extent (c : Char) (rest : List Char) :
    Reads (extent c rest).1 (c :: rest.take (extent c rest).2) (rest.drop (extent c rest).2) := by
  rw [reads_cons_iff, List.take_append_drop, List.length_take_of_le (extent_le_length c rest)]

theorem decomposes_tokenChars (s : List Char) : Decomposes s (tokenChars s) := by
  induction s using lexemes.induct with
  | case1 =>
    rw [tokenChars_nil]
    exact .finish .nil
  | case2 c rest e ih =>
    have hreads := reads_extent c rest
    have htext : c :: rest = (c :: rest.take e.2) ++ rest.drop e.2 := by
      rw [List.cons_append, List.take_append_drop]
    rw [tokenChars_cons]
    cases hkind : (extent c rest).1.isGap with
    | true =>
      rw [htext, if_pos rfl, List.nil_append]
      exact ih.gap hkind hreads
    | false =>
      rw [htext, if_neg Bool.false_ne_true]
      exact .token .nil hkind hreads ih

/-- A text is made up of its tokens and of no others. -/
theorem decomposes_iff {s : List Char} {ts : List (List Char)} :
    Decomposes s ts ↔ tokenChars s = ts := by
  refine ⟨Decomposes.tokenChars_eq, ?_⟩
  rintro rfl
  exact decomposes_tokenChars s

/-- Every token has the form of its kind in front of what follows it. -/
theorem Decomposes.exists_reads {s t : List Char} {ts : List (List Char)} (h : Decomposes s ts)
    (ht : t ∈ ts) : ∃ kind rest, kind.isGap = false ∧ Reads kind t rest := by
  induction h with
  | finish _ => cases ht
  | @token kind _ _ s _ _ hkind hreads _ ih =>
    rcases List.mem_cons.1 ht with rfl | ht
    · exact ⟨kind, s, hkind, hreads⟩
    · exact ih ht

theorem exists_reads_of_mem_tokenize {text token : String} (h : token ∈ tokenize text) :
    ∃ kind rest, kind.isGap = false ∧ Reads kind token.toList rest := by
  rw [tokenize_eq_map_tokenChars] at h
  obtain ⟨t, ht, rfl⟩ := List.mem_map.1 h
  rw [String.toList_ofList]
  exact (decomposes_tokenChars text.toList).exists_reads ht

/-! ## Lines and their tokens -/

/-- No token begins like white space or a comment. -/
theorem Lexeme.Reads.not_gap {kind : Kind} {t rest : List Char} (h : Reads kind t rest)
    (hkind : kind.isGap = false) :
    (∀ c ∈ t.head?, isWhiteSpace c = false) ∧ ¬ ['/', '/'] <+: t ∧ ¬ ['/', '*'] <+: t := by
  obtain ⟨c, word, rfl, hextent⟩ := h.exists_cons
  refine ⟨?_, ?_, ?_⟩
  · rintro _ hc
    obtain rfl := Option.some.inj hc
    rw [← Bool.not_eq_true]
    intro hblank
    rw [extent_of_isWhiteSpace hblank] at hextent
    obtain ⟨rfl, -⟩ := Prod.mk.inj hextent
    cases hkind
  · rintro ⟨more, hmore⟩
    obtain ⟨rfl, rfl⟩ := List.cons.inj hmore
    obtain ⟨rfl, -⟩ := Prod.mk.inj ((extent_lineComment _).symm.trans hextent)
    cases hkind
  · rintro ⟨more, hmore⟩
    obtain ⟨rfl, rfl⟩ := List.cons.inj hmore
    obtain ⟨rfl, -⟩ := Prod.mk.inj ((extent_blockComment _).symm.trans hextent)
    cases hkind

/-- A line is made up of its tokens, with gaps of white space and comments around them, and of no
other tokens. A token is a literal, a number, an identifier or a single character; it is only one of
these, and where it stands no other one does. It is not empty, and it begins neither with white
space nor like a comment. -/
theorem tokenize_decomposes (text : String) :
    (∀ tokens : List String,
      Decomposes text.toList (tokens.map String.toList) ↔ tokenize text = tokens) ∧
    (∀ (kind kind' : Kind) (t t' rest rest' : List Char), Reads kind t rest →
      Reads kind' t' rest' → t ++ rest = t' ++ rest' → kind = kind' ∧ t = t') ∧
    ∀ token ∈ tokenize text, token ≠ "" ∧ (∀ c ∈ token.toList.head?, isWhiteSpace c = false) ∧
      ¬ ['/', '/'] <+: token.toList ∧ ¬ ['/', '*'] <+: token.toList := by
  refine ⟨fun tokens => ?_, ?_, fun token htoken => ?_⟩
  · rw [decomposes_iff, tokenize_eq_map_tokenChars]
    constructor
    · intro h
      simp [h]
    · rintro rfl
      simp
  · intro kind kind' t t' rest rest' h h' heq
    obtain ⟨hkind, ht, -⟩ := h.unique h' heq
    exact ⟨hkind, ht⟩
  · obtain ⟨kind, rest, hkind, hreads⟩ := exists_reads_of_mem_tokenize htoken
    refine ⟨?_, hreads.not_gap hkind⟩
    rintro rfl
    obtain ⟨c, word, hnil, -⟩ := hreads.exists_cons
    cases hnil

end DeckScript
