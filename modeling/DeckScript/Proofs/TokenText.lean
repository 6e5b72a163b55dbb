import DeckScript.Proofs.LexemeExtent
import DeckScript.Token.Record

/-!
# Tokens put into the text of a line

A token may be put in place of an identifier in the text of a line, set off by blanks. The tokens of
the new text are those of the old one, with the new token wherever the identifier was one: no other
token is cut, joined or lost.

## Main definitions

* `IsIdentifier`, `IsToken` — a text that is an identifier, and one that is a token of any kind
* `tokenChars` — the tokens of a text as characters
* `replaceToken` — a text with another token in place of each token that is the identifier

## Main results

* `tokenize_replaceToken` — the tokens of the new text
-/

namespace DeckScript

open Lexeme Text

/-- A letter or an underscore, and then letters, decimal digits and underscores. -/
def IsIdentifier (s : String) : Prop :=
  ∃ c rest, s.toList = c :: rest ∧ isIdentifierStart c ∧ ∀ d ∈ rest, isIdentifierPart d

theorem IsIdentifier.ne_equals {s : String} (h : IsIdentifier s) : s ≠ "=" := by
  rintro rfl
  obtain ⟨c, rest, hs, hc, -⟩ := h
  obtain ⟨rfl, -⟩ := List.cons.inj hs
  exact absurd hc (by decide +kernel)

theorem isLetter_of_isLower {c : Char} (h : c.isLower) : isLetter c := by
  obtain ⟨hlow, hhigh⟩ := Bool.and_eq_true_iff.1 h
  exact inRanges_iff.2 ⟨(0x61, 0x7A), List.mem_cons_of_mem _ List.mem_cons_self,
    of_decide_eq_true hlow, of_decide_eq_true hhigh⟩

/-- A word in small letters is an identifier. -/
theorem isIdentifier_of_isLower {s : String} {c : Char} {rest : List Char}
    (hs : s.toList = c :: rest) (h : (c :: rest).all Char.isLower) : IsIdentifier s := by
  have hletter : ∀ d ∈ c :: rest, isLetter d := fun d hd =>
    isLetter_of_isLower (List.all_eq_true.1 h d hd)
  rw [List.forall_mem_cons] at hletter
  exact ⟨c, rest, hs, by simp [isIdentifierStart, hletter.1],
    fun d hd => by simp [isIdentifierPart, hletter.2 d hd]⟩

/-- A text that is a token and stays one when a blank follows it, so that a literal in it is
closed. -/
def IsToken (s : String) : Prop :=
  ∃ kind : Kind, kind.isGap = false ∧
    lexemes (s.toList ++ [' ']) = [⟨kind, s.toList⟩, ⟨.blank, [' ']⟩]

/-- The tokens of a text as characters. -/
def tokenChars (s : List Char) : List (List Char) :=
  ((lexemes s).filter fun l => !l.kind.isGap).map Lexeme.chars

/-- The characters of a text, with those of another token between blanks in place of each token
`v`. -/
def replaceTokenChars (v value s : List Char) : List Char :=
  (lexemes s).flatMap fun l =>
    if l.kind.isGap = false ∧ l.chars = v then ' ' :: (value ++ [' ']) else l.chars

/-- A text with another token, set off by blanks, in place of each token `v`. -/
def replaceToken (v value text : String) : String :=
  String.ofList (replaceTokenChars v.toList value.toList text.toList)

theorem tokenize_eq_map_tokenChars (text : String) :
    tokenize text = (tokenChars text.toList).map String.ofList := by
  rw [tokenize, tokenChars, List.map_map]
  rfl

/-! ## From lexeme to lexeme -/

@[simp] theorem tokenChars_nil : tokenChars [] = [] := by simp [tokenChars, lexemes]

theorem tokenChars_cons (c : Char) (rest : List Char) :
    tokenChars (c :: rest) =
      (if (extent c rest).1.isGap then [] else [c :: rest.take (extent c rest).2]) ++
        tokenChars (rest.drop (extent c rest).2) := by
  rw [tokenChars, lexemes, List.filter_cons]
  cases (extent c rest).1.isGap <;> simp [tokenChars]

theorem tokenChars_of_extent {c : Char} {word rest : List Char} {kind : Kind}
    (h : extent c (word ++ rest) = (kind, word.length)) :
    tokenChars (c :: (word ++ rest)) =
      (if kind.isGap then [] else [c :: word]) ++ tokenChars rest := by
  rw [tokenChars_cons, h, List.take_left, List.drop_left]

theorem extent_of_isWhiteSpace {c : Char} (hc : isWhiteSpace c) (rest : List Char) :
    extent c rest = (.blank, runLength isWhiteSpace rest) := by
  rw [extent, if_pos hc]

/-- White space in front of a text does not count. -/
theorem tokenChars_cons_of_isWhiteSpace {c : Char} (hc : isWhiteSpace c) (s : List Char) :
    tokenChars (c :: s) = tokenChars s := by
  have hrun {c : Char} (hc : isWhiteSpace c) (s : List Char) :
      tokenChars (c :: s) = tokenChars (s.drop (runLength isWhiteSpace s)) := by
    rw [tokenChars_cons, extent_of_isWhiteSpace hc]
    rfl
  rw [hrun hc]
  cases s with
  | nil => rfl
  | cons e rest =>
    by_cases he : isWhiteSpace e
    -- The run goes on, and what is behind it is also what is behind the white space in `s`.
    · rw [hrun he, runLength, List.takeWhile_cons_of_pos he, List.length_cons,
        List.drop_succ_cons, runLength]
    · rw [runLength, List.takeWhile_cons_of_neg he, List.length_nil, List.drop_zero]

theorem tokenChars_append_of_isWhiteSpace {blank : List Char} (h : ∀ c ∈ blank, isWhiteSpace c)
    (s : List Char) : tokenChars (blank ++ s) = tokenChars s := by
  induction blank with
  | nil => rfl
  | cons c blank ih =>
    rw [List.cons_append, tokenChars_cons_of_isWhiteSpace (h c List.mem_cons_self),
      ih fun e he => h e (List.mem_cons_of_mem c he)]

/-- A token is cut off by the blank behind it. -/
theorem IsToken.tokenChars_append {s : String} (h : IsToken s) (rest : List Char) :
    tokenChars (s.toList ++ ' ' :: rest) = s.toList :: tokenChars rest := by
  obtain ⟨kind, hkind, hlexemes⟩ := h
  cases hs : s.toList with
  | nil =>
    rw [hs, List.nil_append, lexemes] at hlexemes
    simp [lexemes] at hlexemes
  | cons c word =>
    rw [hs, List.cons_append, lexemes] at hlexemes
    obtain ⟨hfirst, -⟩ := List.cons.inj hlexemes
    obtain ⟨rfl, hchars⟩ := Lexeme.mk.inj hfirst
    have hlength : (extent c (word ++ [' '])).2 = word.length := by
      have := congrArg List.length (List.cons.inj hchars).2
      rw [List.length_take, List.length_append, List.length_singleton] at this
      omega
    have hword : isWhiteSpace c = false := by
      rw [← Bool.not_eq_true]
      intro hc
      rw [extent_of_isWhiteSpace hc] at hkind
      cases hkind
    have hextent : extent c (word ++ ' ' :: rest) = extent c (word ++ [' ']) :=
      extent_append_congr (.inl rfl) hword rest (Nat.le_of_eq hlength)
    have hpair : extent c (word ++ ' ' :: rest) =
        ((extent c (word ++ [' '])).1, word.length) := by
      rw [hextent, ← hlength]
    rw [List.cons_append, tokenChars_of_extent hpair, hkind]
    simp only [Bool.false_eq_true, if_false, List.singleton_append]
    rw [tokenChars_cons_of_isWhiteSpace (by decide)]

/-! ## The new text -/

@[simp] theorem replaceTokenChars_nil (v value : List Char) :
    replaceTokenChars v value [] = [] := by
  simp [replaceTokenChars, lexemes]

theorem replaceTokenChars_cons (v value : List Char) (c : Char) (rest : List Char) :
    replaceTokenChars v value (c :: rest) =
      (if (extent c rest).1.isGap = false ∧ c :: rest.take (extent c rest).2 = v then
          ' ' :: (value ++ [' '])
        else c :: rest.take (extent c rest).2) ++
        replaceTokenChars v value (rest.drop (extent c rest).2) := by
  rw [replaceTokenChars, lexemes, List.flatMap_cons]
  rfl

/-- Where the new text begins to differ from the old one, it has a blank for the first character of
an identifier. -/
theorem replaceTokenChars_eq_or {v : String} (hv : IsIdentifier v) (value s : List Char) :
    replaceTokenChars v.toList value s = s ∨
      ∃ q d t t', IsBoundary d ∧ s = q ++ d :: t ∧
        replaceTokenChars v.toList value s = q ++ ' ' :: t' := by
  induction s using lexemes.induct with
  | case1 => exact .inl (replaceTokenChars_nil _ _)
  | case2 c rest e ih =>
    rw [replaceTokenChars_cons]
    split
    · rename_i hword
      obtain ⟨d, part, hd, hstart, -⟩ := hv
      obtain ⟨rfl, -⟩ := List.cons.inj (hword.2.trans hd)
      exact .inr ⟨[], c, rest, _, .inr hstart, rfl, rfl⟩
    · rcases ih with hsame | ⟨q, d, t, t', hd, htail, hnew⟩
      · refine .inl ?_
        rw [hsame, List.cons_append, List.take_append_drop]
      · refine .inr ⟨c :: rest.take e.2 ++ q, d, t, t', hd, ?_, ?_⟩
        · rw [List.append_assoc, ← htail, List.cons_append, List.take_append_drop]
        · rw [hnew, List.append_assoc]

/-- A lexeme that is no white space and is left as it is reaches as far in the new text. -/
theorem extent_append_replaceTokenChars {v : String} (hv : IsIdentifier v) (value : List Char)
    {c : Char} (hc : isWhiteSpace c = false) (rest : List Char) :
    let n := (extent c rest).2
    let tail := replaceTokenChars v.toList value (rest.drop n)
    extent c (rest.take n ++ tail) = extent c rest ∧
      (rest.take n ++ tail).take n = rest.take n ∧ (rest.take n ++ tail).drop n = tail := by
  intro n tail
  rcases replaceTokenChars_eq_or hv value (rest.drop n) with hsame | ⟨q, d, t, t', hd, hold, hnew⟩
  · have htail : rest.take n ++ tail = rest := by
      rw [show tail = rest.drop n from hsame, List.take_append_drop]
    rw [htail]
    exact ⟨rfl, rfl, hsame.symm⟩
  · -- Something is left behind the lexeme, so it has all its characters.
    have hlength : (rest.take n).length = n := by
      have := congrArg List.length hold
      rw [List.length_drop, List.length_append, List.length_cons] at this
      rw [List.length_take]
      omega
    have hrest : rest = (rest.take n ++ q) ++ d :: t := by
      rw [List.append_assoc, ← hold, List.take_append_drop]
    refine ⟨?_, List.take_left' hlength, List.drop_left' hlength⟩
    rw [show tail = q ++ ' ' :: t' from hnew, ← List.append_assoc]
    conv_rhs => rw [hrest]
    apply extent_append_congr hd hc
    rw [← hrest, List.length_append, hlength]
    exact Nat.le_add_right n q.length

/-- The tokens of a text with another token in place of an identifier. -/
theorem tokenChars_replaceTokenChars {v value : String} (hv : IsIdentifier v)
    (hvalue : IsToken value) (s : List Char) :
    tokenChars (replaceTokenChars v.toList value.toList s) =
      (tokenChars s).map fun token => if token = v.toList then value.toList else token := by
  induction s using lexemes.induct with
  | case1 => simp
  | case2 c rest e ih =>
    dsimp only [e] at ih
    rw [replaceTokenChars_cons, tokenChars_cons c rest, List.map_append, ← ih]
    split
    · rename_i hword
      -- The identifier makes way for the token and the blanks around it.
      rw [hword.1, hword.2, List.cons_append, tokenChars_cons_of_isWhiteSpace (by decide),
        List.append_assoc, List.singleton_append, hvalue.tokenChars_append]
      simp
    · rename_i hword
      cases hc : isWhiteSpace c with
      | true =>
        have htake : rest.take (runLength isWhiteSpace rest) = rest.takeWhile isWhiteSpace :=
          (List.prefix_iff_eq_take.1 (List.takeWhile_prefix _)).symm
        have hall : ∀ d ∈ c :: rest.take (runLength isWhiteSpace rest), isWhiteSpace d := by
          rw [htake, List.forall_mem_cons]
          exact ⟨hc, List.all_eq_true.1 List.all_takeWhile⟩
        rw [extent_of_isWhiteSpace hc, tokenChars_append_of_isWhiteSpace hall]
        rfl
      | false =>
        obtain ⟨hextent, htake, hdrop⟩ := extent_append_replaceTokenChars hv value.toList hc rest
        rw [List.cons_append, tokenChars_cons, hextent, htake, hdrop]
        congr 1
        cases hgap : (extent c rest).1.isGap with
        | true => rfl
        | false =>
          have hne : c :: rest.take (extent c rest).2 ≠ v.toList := fun h => hword ⟨hgap, h⟩
          simp [hne]

/-- The tokens of a line whose text has another token in place of an identifier: that token in place
of each token that is the identifier, and all other tokens as they were. -/
theorem tokenize_replaceToken {v value : String} (hv : IsIdentifier v) (hvalue : IsToken value)
    (text : String) :
    tokenize (replaceToken v value text) =
      (tokenize text).map fun token => if token = v then value else token := by
  rw [tokenize_eq_map_tokenChars, tokenize_eq_map_tokenChars, replaceToken, String.toList_ofList,
    tokenChars_replaceTokenChars hv hvalue, List.map_map, List.map_map]
  refine List.map_congr_left fun token _ => ?_
  have hiff : token = v.toList ↔ String.ofList token = v := by
    rw [← String.toList_inj, String.toList_ofList]
  by_cases h : token = v.toList
  · simp [h]
  · have h' : String.ofList token ≠ v := fun h' => h (hiff.2 h')
    simp [h, h']

end DeckScript
