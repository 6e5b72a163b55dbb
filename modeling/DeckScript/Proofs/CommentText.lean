import DeckScript.Proofs.TokenText
import Mathlib.Data.List.TakeWhile
import Mathlib.Tactic.SplitIfs

/-!
# A comment behind a line

A comment may be set off by a blank behind a line in which all literals and comments are closed. The
tokens of the line stay what they are: every lexeme ends where it ended when there was nothing
behind the line, and the comment is none.

## Main definitions

* `Lexeme.closes` — a literal or a comment is closed where it begins
* `IsClosed` — all literals and comments of a text are closed
* `IsComment` — a blank and a comment behind it

## Main results

* `extent_append_blank` — a lexeme that is closed ends where it ends without the blank
* `tokenize_append_comment` — a comment behind a closed line adds no token
-/

namespace DeckScript

open Lexeme Text

namespace Lexeme

/-! ## Closed literals and comments -/

/-- There is a star with a slash behind it. -/
def blockCloses : List Char → Bool
  | [] => false
  | c :: rest => (c = '*' && rest.head? = some '/') || blockCloses rest

/-- There is a delimiter that no backslash takes along. -/
def quotedCloses (delimiter : Char) : List Char → Bool
  | [] => false
  | '\\' :: c :: rest => c ≠ '\n' && quotedCloses delimiter rest
  | ['\\'] => false
  | c :: rest => c = delimiter || quotedCloses delimiter rest

/-- The lexeme that begins with `c` is closed in `rest` if it is a literal or a comment between
marks. -/
def closes (c : Char) (rest : List Char) : Bool :=
  if c = '/' && startsWith '*' rest then blockCloses rest.tail
  else if c = '"' || c = '\'' then quotedCloses c rest
  else if c = backquote then rest.contains backquote
  else true

/-! ## Lengths in front of a blank -/

/-- What is measured by `f` ends in front of a blank as it ends at the end of the text. -/
structure EndsAtBlank (f : List Char → Nat) : Prop where
  le_length (q : List Char) : f q ≤ q.length
  append_blank (q t : List Char) : f (q ++ ' ' :: t) = f q

theorem runLength_le_length (p : Char → Bool) (q : List Char) : runLength p q ≤ q.length :=
  (List.takeWhile_prefix p).length_le

theorem runLength_append_eq (p : Char → Bool) (s t : List Char) :
    runLength p (s ++ t) =
      if runLength p s = s.length then s.length + runLength p t else runLength p s := by
  rw [runLength, List.takeWhile_append, runLength, runLength]
  split
  · exact List.length_append
  · rfl

theorem endsAtBlank_runLength {p : Char → Bool} (hp : p ' ' = false) :
    EndsAtBlank (runLength p) where
  le_length := runLength_le_length p
  append_blank q t := by
    have hblank : runLength p (' ' :: t) = 0 := by
      rw [runLength, List.takeWhile_cons, hp]
      rfl
    rw [runLength_append_eq, hblank]
    split
    · rename_i hall
      exact hall.symm
    · rfl

theorem endsAtBlank_digits : EndsAtBlank (runLength Char.isDigit) :=
  endsAtBlank_runLength (p := Char.isDigit) (by decide)

theorem endsAtBlank_fractionLength : EndsAtBlank fractionLength where
  le_length q := by
    cases q with
    | nil => exact Nat.le_refl 0
    | cons c q =>
      have hdigits := runLength_le_length Char.isDigit q
      rw [fractionLength_cons, List.length_cons]
      split <;> omega
  append_blank q t := by
    cases q with
    | nil => rw [List.nil_append, fractionLength_cons, if_neg (by decide)]; rfl
    | cons c q =>
      rw [List.cons_append, fractionLength_cons, fractionLength_cons,
        endsAtBlank_digits.append_blank]

theorem endsAtBlank_exponentLength : EndsAtBlank exponentLength where
  le_length q := by
    match q with
    | [] | [_] => exact Nat.zero_le _
    | mark :: c :: q =>
      have hdigits := runLength_le_length Char.isDigit q
      have hdigits' := runLength_le_length Char.isDigit (c :: q)
      rw [List.length_cons] at hdigits'
      rw [exponentLength, List.length_cons, List.length_cons]
      split_ifs <;> omega
  append_blank q t := by
    match q with
    | [] =>
      cases t with
      | nil => rfl
      | cons c rest => rw [List.nil_append, exponentLength, if_neg (by decide)]; rfl
    | [mark] =>
      -- A mark needs a digit behind it or behind its sign, and a blank is neither.
      have hsign : isSign ' ' = false := by decide
      rw [List.singleton_append, exponentLength, hsign, runLength_digits_blank]
      simp [exponentLength]
    | mark :: c :: q =>
      have hdigits := endsAtBlank_digits.append_blank (c :: q) t
      rw [List.cons_append] at hdigits
      rw [List.cons_append, List.cons_append, exponentLength, exponentLength, hdigits,
        endsAtBlank_digits.append_blank]

/-- What is measured behind a length that ends at a blank ends there as well. -/
theorem EndsAtBlank.add_drop {f g : List Char → Nat} (hf : EndsAtBlank f) (hg : EndsAtBlank g) :
    EndsAtBlank fun s => f s + g (s.drop (f s)) where
  le_length q := by
    have hfirst := hf.le_length q
    have hsecond := hg.le_length (q.drop (f q))
    rw [List.length_drop] at hsecond
    omega
  append_blank q t := by
    rw [hf.append_blank, List.drop_append_of_le_length (hf.le_length q), hg.append_blank]

theorem endsAtBlank_decimalExtent : EndsAtBlank decimalExtent :=
  (endsAtBlank_digits.add_drop endsAtBlank_fractionLength).add_drop endsAtBlank_exponentLength

theorem endsAtBlank_pointExtent : EndsAtBlank pointExtent :=
  endsAtBlank_digits.add_drop endsAtBlank_exponentLength

theorem endsAtBlank_hexDigits : EndsAtBlank (runLength isHexDigit) :=
  endsAtBlank_runLength (p := isHexDigit) (by decide)

theorem hexExtent?_append_blank (q t : List Char) : hexExtent? (q ++ ' ' :: t) = hexExtent? q := by
  match q with
  | [] =>
    cases t with
    | nil => rfl
    | cons c rest => rw [List.nil_append, hexExtent?, if_neg (by simp)]; rfl
  | [mark] =>
    have hblank : isHexDigit ' ' = false := by decide
    rw [List.singleton_append, hexExtent?, hblank, if_neg (by simp)]
    rfl
  | mark :: c :: q =>
    simp only [List.cons_append, hexExtent?, endsAtBlank_hexDigits.append_blank]

theorem le_length_of_hexExtent? {q : List Char} {n : Nat} (h : hexExtent? q = some n) :
    n ≤ q.length := by
  match q with
  | [] | [_] => cases h
  | mark :: c :: q =>
    rw [hexExtent?] at h
    split at h
    · obtain rfl := Option.some.inj h
      have hdigits := runLength_le_length isHexDigit q
      simp only [List.length_cons]
      omega
    · cases h

/-! ## Lengths up to a closing mark -/

theorem blockCommentLength_le_length (q : List Char) : blockCommentLength q ≤ q.length := by
  induction q with
  | nil => exact Nat.le_refl 0
  | cons c q ih =>
    rw [blockCommentLength_cons, List.length_cons]
    split
    · rename_i hcloses
      obtain ⟨rest, rfl⟩ := List.head?_eq_some_iff.1 hcloses.2
      rw [List.length_cons]
      omega
    · omega

theorem blockCommentLength_append {q : List Char} (h : blockCloses q) (t : List Char) :
    blockCommentLength (q ++ t) = blockCommentLength q := by
  induction q with
  | nil => cases h
  | cons c q ih =>
    rw [List.cons_append, blockCommentLength_cons, blockCommentLength_cons]
    cases q with
    | nil => simp [blockCloses] at h
    | cons d q =>
      rw [List.cons_append, List.head?_cons, List.head?_cons, ← List.cons_append]
      split
      · rfl
      · rename_i hopen
        rw [blockCloses, Bool.or_eq_true] at h
        rw [ih (h.resolve_left (by simpa using hopen))]

theorem rawLength_le_length (delimiter : Char) (q : List Char) :
    rawLength delimiter q ≤ q.length := by
  induction q with
  | nil => exact Nat.le_refl 0
  | cons c q ih =>
    rw [rawLength, List.length_cons]
    split <;> omega

theorem rawLength_append {delimiter : Char} {q : List Char} (h : delimiter ∈ q) (t : List Char) :
    rawLength delimiter (q ++ t) = rawLength delimiter q := by
  induction q with
  | nil => cases h
  | cons c q ih =>
    rw [List.cons_append, rawLength, rawLength]
    split
    · rfl
    · rename_i hopen
      rw [ih ((List.mem_cons.1 h).resolve_left (Ne.symm hopen))]

theorem quotedLength_le_length (delimiter : Char) (q : List Char) :
    quotedLength delimiter q ≤ q.length := by
  fun_induction quotedLength delimiter q with
  | case1 => exact Nat.le_refl 0
  | case2 rest => exact Nat.zero_le _
  | case3 c rest hbreak ih => simp only [List.length_cons]; omega
  | case4 => exact Nat.zero_le _
  | case5 rest => simp only [List.length_cons]; omega
  | case6 c rest hopen ih => simp only [List.length_cons]; omega

theorem quotedLength_append_of_closes {delimiter : Char} {q : List Char}
    (h : quotedCloses delimiter q) (t : List Char) :
    quotedLength delimiter (q ++ t) = quotedLength delimiter q := by
  fun_induction quotedCloses delimiter q with
  | case1 => cases h
  | case2 c rest ih =>
    rw [Bool.and_eq_true, decide_eq_true_eq] at h
    rw [List.cons_append, List.cons_append, quotedLength_escape, quotedLength_escape, ih h.2]
  | case3 => cases h
  | case4 c rest hescape hlast ih =>
    have hc : c ≠ '\\' := by
      rintro rfl
      cases rest with
      | nil => exact hlast rfl rfl
      | cons d rest => exact hescape d rest rfl rfl
    rw [List.cons_append, quotedLength_cons hc, quotedLength_cons hc]
    split
    · rfl
    · rename_i hopen
      rw [Bool.or_eq_true, decide_eq_true_eq] at h
      rw [ih (h.resolve_left hopen)]

theorem blockCommentLength_append_close {t : List Char} (h : blockCloses t = false) :
    blockCommentLength (t ++ ['*', '/']) = t.length + 2 := by
  induction t with
  | nil => rfl
  | cons c t ih =>
    rw [blockCloses, Bool.or_eq_false_iff] at h
    have hopen : ¬(c = '*' ∧ (t ++ ['*', '/']).head? = some '/') := by
      cases t with
      | nil => simp
      | cons d t => simpa using h.1
    rw [List.cons_append, blockCommentLength_cons, if_neg hopen, ih h.2, List.length_cons]

/-! ## Lexemes in front of a blank -/

/-- A lexeme is no longer than the text. -/
theorem extent_le_length (c : Char) (rest : List Char) : (extent c rest).2 ≤ rest.length := by
  rw [extent]
  split
  · exact runLength_le_length _ rest
  split
  · exact runLength_le_length _ rest
  split
  · rename_i hblock
    rw [Bool.and_eq_true, startsWith, decide_eq_true_eq, decide_eq_true_eq] at hblock
    obtain ⟨more, rfl⟩ := List.head?_eq_some_iff.1 hblock.2
    have hmore := blockCommentLength_le_length more
    rw [List.tail_cons, List.length_cons]
    exact Nat.succ_le_succ hmore
  split
  · exact quotedLength_le_length c rest
  split
  · exact rawLength_le_length c rest
  split
  · split
    · rename_i n hhex
      split at hhex
      · exact le_length_of_hexExtent? hhex
      · cases hhex
    · exact endsAtBlank_decimalExtent.le_length rest
  split
  · exact endsAtBlank_pointExtent.le_length rest
  split
  · exact runLength_le_length _ rest
  · exact Nat.zero_le _

theorem startsWith_append_blank {c : Char} (hc : c ≠ ' ') (q t : List Char) :
    startsWith c (q ++ ' ' :: t) = startsWith c q := by
  cases q with
  | nil => simp [startsWith, Ne.symm hc]
  | cons d q => rfl

/-- A closed lexeme that is neither white space nor a comment up to the end of the line ends where
it ends without the blank behind the text. -/
theorem extent_append_blank {c : Char} {rest : List Char} (hc : isWhiteSpace c = false)
    (hline : ¬(c = '/' && startsWith '/' rest)) (hcloses : closes c rest) (t : List Char) :
    extent c (rest ++ ' ' :: t) = extent c rest := by
  have hslash := startsWith_append_blank (c := '/') (by decide) rest t
  have hstar := startsWith_append_blank (c := '*') (by decide) rest t
  have hdigit : (rest ++ ' ' :: t).head?.any Char.isDigit = rest.head?.any Char.isDigit := by
    cases rest with
    | nil => rfl
    | cons d rest => rfl
  simp only [extent, hc, hslash, hstar, hdigit, hline, Bool.false_eq_true, if_false]
  rw [closes] at hcloses
  by_cases hblock : c = '/' && startsWith '*' rest
  · rw [if_pos hblock] at hcloses
    rw [if_pos hblock, if_pos hblock]
    cases rest with
    | nil => cases hcloses
    | cons d rest =>
      rw [List.tail_cons] at hcloses
      rw [List.cons_append, List.tail_cons, List.tail_cons, blockCommentLength_append hcloses]
  rw [if_neg hblock] at hcloses
  rw [if_neg hblock, if_neg hblock]
  by_cases hquoted : c = '"' || c = '\''
  · rw [if_pos hquoted] at hcloses
    rw [if_pos hquoted, if_pos hquoted, quotedLength_append_of_closes hcloses]
  rw [if_neg hquoted] at hcloses
  rw [if_neg hquoted, if_neg hquoted]
  by_cases hraw : c = backquote
  · rw [if_pos hraw, List.contains_iff_mem] at hcloses
    rw [if_pos hraw, if_pos hraw, hraw, rawLength_append hcloses]
  -- None of the other lexemes looks past a blank.
  simp only [if_neg hraw, hexExtent?_append_blank, endsAtBlank_decimalExtent.append_blank,
    endsAtBlank_pointExtent.append_blank]
  rw [(endsAtBlank_runLength isIdentifierPart_blank).append_blank]

end Lexeme

/-! ## Lines -/

/-- All literals and comments between marks are closed. -/
def closedChars : List Char → Bool
  | [] => true
  | c :: rest => closes c rest && closedChars (rest.drop (extent c rest).2)
termination_by s => s.length
decreasing_by simp only [List.length_drop, List.length_cons]; omega

/-- All literals and all comments between marks in a text are closed. -/
def IsClosed (text : String) : Prop := closedChars text.toList

instance : DecidablePred IsClosed := fun text =>
  inferInstanceAs (Decidable (closedChars text.toList = true))

/-- A comment that is set off by a blank: up to the end of the line, or between marks. -/
inductive IsComment : String → Prop
  | line (t : String) : '\n' ∉ t.toList → IsComment (" //" ++ t)
  | block (t : String) : '\n' ∉ t.toList → blockCloses t.toList = false →
    IsComment (" /*" ++ t ++ "*/")

theorem runLength_eq_length {p : Char → Bool} {s : List Char} (h : ∀ c ∈ s, p c) :
    runLength p s = s.length := by
  rw [runLength, List.takeWhile_eq_self_iff.2 h]

theorem notBreak_of_notMem {s : List Char} (h : '\n' ∉ s) :
    ∀ c ∈ s, (fun d => decide (d ≠ '\n')) c = true := by
  intro c hc
  exact decide_eq_true fun hbreak => h (hbreak ▸ hc)

theorem tokenChars_of_comment {c : Char} {rest : List Char}
    (h : extent c rest = (.comment, rest.length)) : tokenChars (c :: rest) = [] := by
  rw [tokenChars_cons, h, List.drop_length, tokenChars_nil]
  rfl

/-- A comment up to the end of the line takes everything. -/
theorem tokenChars_lineComment {t : List Char} (h : '\n' ∉ t) :
    tokenChars ('/' :: '/' :: t) = [] := by
  have hslash : isWhiteSpace '/' = false := by decide +kernel
  have hlength := runLength_eq_length (notBreak_of_notMem (s := '/' :: t) (by simpa using h))
  have hextent : extent '/' ('/' :: t) = (.comment, ('/' :: t).length) := by
    rw [extent, hslash, ← hlength]
    rfl
  exact tokenChars_of_comment hextent

theorem tokenChars_blockComment {t : List Char} (h : blockCloses t = false) :
    tokenChars ('/' :: '*' :: (t ++ ['*', '/'])) = [] := by
  have hslash : isWhiteSpace '/' = false := by decide +kernel
  have hextent : extent '/' ('*' :: (t ++ ['*', '/'])) =
      (.comment, ('*' :: (t ++ ['*', '/'])).length) := by
    rw [extent, hslash]
    simp [startsWith, blockCommentLength_append_close h]
  exact tokenChars_of_comment hextent

theorem IsComment.exists_toList {comment : String} (h : IsComment comment) :
    ∃ t, comment.toList = ' ' :: t ∧ '\n' ∉ t ∧ tokenChars t = [] := by
  cases h with
  | line t hbreak =>
    refine ⟨'/' :: '/' :: t.toList, by simp, by simpa using hbreak, ?_⟩
    exact tokenChars_lineComment hbreak
  | block t hbreak hopen =>
    refine ⟨'/' :: '*' :: (t.toList ++ ['*', '/']), by simp, by simpa using hbreak, ?_⟩
    exact tokenChars_blockComment hopen

/-- A lexeme that ends where it ends without the text behind it hands that text on. -/
theorem tokenChars_append_of_extent {c : Char} {rest t : List Char}
    (h : extent c (rest ++ t) = extent c rest) :
    tokenChars (c :: (rest ++ t)) =
      (if (extent c rest).1.isGap then [] else [c :: rest.take (extent c rest).2]) ++
        tokenChars (rest.drop (extent c rest).2 ++ t) := by
  have hle := extent_le_length c rest
  rw [tokenChars_cons, h, List.take_append_of_le_length hle, List.drop_append_of_le_length hle]

/-- What has no tokens and no line break adds no token behind a blank. -/
theorem tokenChars_append_blank {s t : List Char} (hclosed : closedChars s) (hbreak : '\n' ∉ t)
    (ht : tokenChars t = []) : tokenChars (s ++ ' ' :: t) = tokenChars s := by
  induction s using lexemes.induct with
  | case1 =>
    rw [List.nil_append, tokenChars_cons_of_isWhiteSpace (by decide), ht, tokenChars_nil]
  | case2 c rest e ih =>
    rw [closedChars, Bool.and_eq_true] at hclosed
    have hrest := ih hclosed.2
    have hstep (h : extent c (rest ++ ' ' :: t) = extent c rest) :
        tokenChars (c :: rest ++ ' ' :: t) = tokenChars (c :: rest) := by
      rw [List.cons_append, tokenChars_append_of_extent h, tokenChars_cons, hrest]
    cases hc : isWhiteSpace c with
    | true =>
      -- The blank may belong to the run, which has no tokens anyway.
      have htake : rest.take e.2 = rest.takeWhile isWhiteSpace := by
        simp only [e, extent_of_isWhiteSpace hc]
        exact (List.prefix_iff_eq_take.1 (List.takeWhile_prefix _)).symm
      have hall : ∀ d ∈ c :: rest.take e.2, isWhiteSpace d := by
        rw [htake, List.forall_mem_cons]
        exact ⟨hc, List.all_eq_true.1 List.all_takeWhile⟩
      have hsplit : c :: rest = (c :: rest.take e.2) ++ rest.drop e.2 := by
        rw [List.cons_append, List.take_append_drop]
      rw [hsplit, List.append_assoc, tokenChars_append_of_isWhiteSpace hall, hrest,
        tokenChars_append_of_isWhiteSpace hall]
    | false =>
      by_cases hline : c = '/' && startsWith '/' rest
      · have hextent : extent c rest = (.comment, runLength (· ≠ '\n') rest) := by
          simp only [extent, hc, hline, Bool.false_eq_true, if_false, if_true]
        have hextent' : extent c (rest ++ ' ' :: t) =
            (.comment, runLength (· ≠ '\n') (rest ++ ' ' :: t)) := by
          simp only [extent, hc, startsWith_append_blank (c := '/') (by decide), hline,
            Bool.false_eq_true, if_false, if_true]
        by_cases hall : runLength (· ≠ '\n') rest = rest.length
        · -- The comment goes on to the end of the line.
          have hbehind := runLength_eq_length (notBreak_of_notMem (s := ' ' :: t) (by simpa))
          have hwhole : runLength (· ≠ '\n') (rest ++ ' ' :: t) = (rest ++ ' ' :: t).length := by
            rw [runLength_append_eq, if_pos hall, hbehind, List.length_append]
          rw [List.cons_append, tokenChars_of_comment (hwhole ▸ hextent'),
            tokenChars_of_comment (hall ▸ hextent)]
        · apply hstep
          rw [hextent, hextent', runLength_append_eq, if_neg hall]
      · exact hstep (extent_append_blank hc hline hclosed.1 t)

/-- A comment behind a line in which all literals and comments are closed adds no token. -/
theorem tokenize_append_comment {text comment : String} (htext : IsClosed text)
    (hcomment : IsComment comment) : tokenize (text ++ comment) = tokenize text := by
  obtain ⟨t, ht, hbreak, hnone⟩ := hcomment.exists_toList
  rw [tokenize_eq_map_tokenChars, tokenize_eq_map_tokenChars, String.toList_append, ht,
    tokenChars_append_blank htext hbreak hnone]

end DeckScript
