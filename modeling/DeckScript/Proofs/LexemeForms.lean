import DeckScript.Proofs.LongestLexemes

/-!
# The forms of lexemes

Each lexeme has a form in front of the text that follows it. A run of white space, a number and an
identifier is the longest one that begins at its place. A literal reaches to its first closing
delimiter that no backslash takes along, a comment to the first mark that ends it; both run on where
there is none. A single character stands where none of all these begins. At every place exactly one
lexeme has its form, and it is the one that is measured.

## Main definitions

* `IsEscaped`, `IsClosedLiteral` — the inside of a literal, and a literal that is closed
* `ReadsLiteral`, `ReadsComment` — literals and comments in front of what follows them
* `Reads` — a lexeme of a kind in front of what follows it

## Main results

* `reads_cons_iff` — the form of a lexeme and its measure describe the same
* `Reads.unique` — at every place there is one lexeme only
-/

namespace DeckScript.Lexeme

open Text

/-! ## Literals -/

/-- The inside of a literal: no delimiter and no backslash, except for a backslash that takes a
character along that is no line break. -/
inductive IsEscaped (delimiter : Char) : List Char → Prop
  | nil : IsEscaped delimiter []
  | plain {c : Char} {t : List Char} : c ≠ delimiter → c ≠ '\\' → IsEscaped delimiter t →
    IsEscaped delimiter (c :: t)
  | escape {c : Char} {t : List Char} : c ≠ '\n' → IsEscaped delimiter t →
    IsEscaped delimiter ('\\' :: c :: t)

/-- Without the delimiter and backslashes a text can stand inside of a literal as it is. -/
theorem isEscaped_of_all {q : Char} {s : List Char} (h : s.all fun c => c ≠ q ∧ c ≠ '\\') :
    IsEscaped q s := by
  induction s with
  | nil => exact .nil
  | cons c s ih =>
    rw [List.all_cons, Bool.and_eq_true, decide_eq_true_eq] at h
    exact .plain h.1.1 h.1.2 (ih h.2)

theorem IsEscaped.append {q : Char} {s t : List Char} (hs : IsEscaped q s) (ht : IsEscaped q t) :
    IsEscaped q (s ++ t) := by
  induction hs with
  | nil => exact ht
  | plain hq hbackslash _ ih => exact .plain hq hbackslash ih
  | escape hbreak _ ih => exact .escape hbreak ih

/-- Where a literal stops that is not closed: at the end of the text, or in front of a backslash
that takes nothing along. -/
inductive StopsLiteral : List Char → Prop
  | finish : StopsLiteral []
  | backslash : StopsLiteral ['\\']
  | lineBreak {t : List Char} : StopsLiteral ('\\' :: '\n' :: t)

/-- A delimiter of a literal in which a backslash takes a character along. -/
def IsQuote (c : Char) : Prop := c = '"' ∨ c = '\''

instance : DecidablePred IsQuote := fun c => inferInstanceAs (Decidable (c = '"' ∨ c = '\''))

theorem IsQuote.ne_backslash {c : Char} (h : IsQuote c) : c ≠ '\\' := by
  rcases h with rfl | rfl <;> decide

/-- A literal that is closed by its own delimiter. -/
inductive IsClosedLiteral : List Char → Prop
  | quoted {q : Char} {body : List Char} : IsQuote q → IsEscaped q body →
    IsClosedLiteral (q :: (body ++ [q]))
  | raw {body : List Char} : backquote ∉ body →
    IsClosedLiteral (backquote :: (body ++ [backquote]))

/-- A literal in front of what follows it: one that is closed, or one that runs as far as it can. -/
inductive ReadsLiteral : List Char → List Char → Prop
  | closed {t rest : List Char} : IsClosedLiteral t → ReadsLiteral t rest
  | quoted {q : Char} {body rest : List Char} : IsQuote q → IsEscaped q body →
    StopsLiteral rest → ReadsLiteral (q :: body) rest
  | raw {body : List Char} : backquote ∉ body → ReadsLiteral (backquote :: body) []

theorem IsEscaped.quotedLength_append_cons {q : Char} {body : List Char} (h : IsEscaped q body)
    (hq : q ≠ '\\') (rest : List Char) :
    quotedLength q (body ++ q :: rest) = body.length + 1 := by
  induction h with
  | nil => rw [List.nil_append, quotedLength_cons hq, if_pos rfl, List.length_nil]
  | plain hc hescape _ ih =>
    rw [List.cons_append, quotedLength_cons hescape, if_neg hc, ih, List.length_cons]
  | escape hc _ ih =>
    rw [List.cons_append, List.cons_append, quotedLength_escape, if_neg hc, ih, List.length_cons,
      List.length_cons]

theorem IsEscaped.quotedLength_append {q : Char} {body rest : List Char} (h : IsEscaped q body)
    (hrest : StopsLiteral rest) : quotedLength q (body ++ rest) = body.length := by
  induction h with
  | nil => cases hrest <;> rfl
  | plain hc hescape _ ih =>
    rw [List.cons_append, quotedLength_cons hescape, if_neg hc, ih, List.length_cons]
  | escape hc _ ih =>
    rw [List.cons_append, List.cons_append, quotedLength_escape, if_neg hc, ih, List.length_cons,
      List.length_cons]

/-- Every text has an inside of a literal in front, and behind it the literal is closed or stops. -/
theorem exists_isEscaped (q : Char) (s : List Char) :
    ∃ body rest, IsEscaped q body ∧ (s = body ++ q :: rest ∨ s = body ++ rest ∧
      StopsLiteral rest) := by
  fun_induction quotedLength q s with
  | case1 => exact ⟨[], [], .nil, .inr ⟨rfl, .finish⟩⟩
  | case2 rest => exact ⟨[], _, .nil, .inr ⟨rfl, .lineBreak⟩⟩
  | case3 c rest hbreak ih =>
    obtain ⟨body, tail, hbody, hcases⟩ := ih
    refine ⟨'\\' :: c :: body, tail, .escape hbreak hbody, ?_⟩
    rcases hcases with rfl | ⟨rfl, hstops⟩
    · exact .inl rfl
    · exact .inr ⟨rfl, hstops⟩
  | case4 => exact ⟨[], _, .nil, .inr ⟨rfl, .backslash⟩⟩
  | case5 rest => exact ⟨[], rest, .nil, .inl rfl⟩
  | case6 c rest hescape hlast hopen ih =>
    have hc : c ≠ '\\' := by
      rintro rfl
      cases rest with
      | nil => exact hlast rfl rfl
      | cons d rest => exact hescape d rest rfl rfl
    obtain ⟨body, tail, hbody, hcases⟩ := ih
    refine ⟨c :: body, tail, .plain hopen hc hbody, ?_⟩
    rcases hcases with rfl | ⟨rfl, hstops⟩
    · exact .inl rfl
    · exact .inr ⟨rfl, hstops⟩

theorem rawLength_append_cons {q : Char} {body : List Char} (h : q ∉ body) (rest : List Char) :
    rawLength q (body ++ q :: rest) = body.length + 1 := by
  induction body with
  | nil => rw [List.nil_append, rawLength, if_pos rfl, List.length_nil]
  | cons c body ih =>
    rw [List.mem_cons, not_or] at h
    rw [List.cons_append, rawLength, if_neg (Ne.symm h.1), ih h.2, List.length_cons]

theorem rawLength_of_notMem {q : Char} {body : List Char} (h : q ∉ body) :
    rawLength q body = body.length := by
  induction body with
  | nil => rfl
  | cons c body ih =>
    rw [List.mem_cons, not_or] at h
    rw [rawLength, if_neg (Ne.symm h.1), ih h.2, List.length_cons]

/-- A literal is measured up to its closing delimiter, or to where it stops. -/
theorem quotedLength_eq_iff {q : Char} (hq : q ≠ '\\') {word rest : List Char} :
    quotedLength q (word ++ rest) = word.length ↔
      (∃ body, word = body ++ [q] ∧ IsEscaped q body) ∨ IsEscaped q word ∧ StopsLiteral rest := by
  constructor
  · intro h
    obtain ⟨body, tail, hbody, heq | ⟨heq, hstops⟩⟩ := exists_isEscaped q (word ++ rest)
    · rw [heq, hbody.quotedLength_append_cons hq] at h
      obtain ⟨rfl, -⟩ := List.append_inj (heq.trans (List.append_cons body q tail)) (by simp [h])
      exact .inl ⟨body, rfl, hbody⟩
    · rw [heq, hbody.quotedLength_append hstops] at h
      obtain ⟨rfl, rfl⟩ := List.append_inj heq h.symm
      exact .inr ⟨hbody, hstops⟩
  · rintro (⟨body, rfl, hbody⟩ | ⟨hword, hstops⟩)
    · rw [List.append_assoc, List.singleton_append, hbody.quotedLength_append_cons hq,
        List.length_append, List.length_singleton]
    · exact hword.quotedLength_append hstops

/-- A literal without escapes is measured up to its closing delimiter, or to the end. -/
theorem rawLength_eq_iff {q : Char} {word rest : List Char} :
    rawLength q (word ++ rest) = word.length ↔
      (∃ body, word = body ++ [q] ∧ q ∉ body) ∨ rest = [] ∧ q ∉ word := by
  constructor
  · intro h
    by_cases hclosed : q ∈ word ++ rest
    · obtain ⟨body, tail, heq, hbody⟩ := List.eq_append_cons_of_mem hclosed
      rw [heq, rawLength_append_cons hbody] at h
      obtain ⟨rfl, -⟩ := List.append_inj (heq.trans (List.append_cons body q tail)) (by simp [h])
      exact .inl ⟨body, rfl, hbody⟩
    · rw [rawLength_of_notMem hclosed, List.length_append] at h
      obtain rfl : rest = [] := List.length_eq_zero_iff.1 (by omega)
      rw [List.append_nil] at hclosed
      exact .inr ⟨rfl, hclosed⟩
  · rintro (⟨body, rfl, hbody⟩ | ⟨rfl, hword⟩)
    · rw [List.append_assoc, List.singleton_append, rawLength_append_cons hbody,
        List.length_append, List.length_singleton]
    · rw [List.append_nil, rawLength_of_notMem hword]

theorem extent_of_isQuote {c : Char} (hc : IsQuote c) (s : List Char) :
    extent c s = (.quoted, quotedLength c s) := by
  rcases hc with rfl | rfl <;> rfl

theorem extent_backquote (s : List Char) :
    extent backquote s = (.quoted, rawLength backquote s) := rfl

theorem isQuote_or_of_extent {c : Char} {s : List Char} (h : (extent c s).1 = .quoted) :
    IsQuote c ∨ c = backquote := by
  by_contra hc
  rw [not_or, IsQuote] at hc
  have hquote : ¬ (c = '"' || c = '\'') := by simpa using hc.1
  rw [extent, if_neg hquote, if_neg hc.2] at h
  split_ifs at h
  split at h <;> cases h

theorem readsLiteral_iff {c : Char} {word rest : List Char} :
    ReadsLiteral (c :: word) rest ↔ extent c (word ++ rest) = (.quoted, word.length) := by
  constructor
  · intro h
    have hquoted (hq : IsQuote c) (hlength : quotedLength c (word ++ rest) = word.length) :
        extent c (word ++ rest) = (.quoted, word.length) := by
      rw [extent_of_isQuote hq, hlength]
    cases h with
    | closed h =>
      cases h with
      | @quoted _ body hq hbody =>
        exact hquoted hq ((quotedLength_eq_iff hq.ne_backslash).2 (.inl ⟨body, rfl, hbody⟩))
      | @raw body hbody => rw [extent_backquote, rawLength_eq_iff.2 (.inl ⟨body, rfl, hbody⟩)]
    | quoted hq hbody hstops =>
      exact hquoted hq ((quotedLength_eq_iff hq.ne_backslash).2 (.inr ⟨hbody, hstops⟩))
    | raw hbody => rw [extent_backquote, rawLength_eq_iff.2 (.inr ⟨rfl, hbody⟩)]
  · intro h
    rcases isQuote_or_of_extent (congrArg Prod.fst h) with hq | rfl
    · rw [extent_of_isQuote hq] at h
      rcases (quotedLength_eq_iff hq.ne_backslash).1 (Prod.mk.inj h).2 with
        ⟨body, rfl, hbody⟩ | ⟨hbody, hstops⟩
      · exact .closed (.quoted hq hbody)
      · exact .quoted hq hbody hstops
    · rw [extent_backquote] at h
      rcases rawLength_eq_iff.1 (Prod.mk.inj h).2 with ⟨body, rfl, hbody⟩ | ⟨rfl, hbody⟩
      · exact .closed (.raw hbody)
      · exact .raw hbody

/-! ## Comments -/

/-- A comment in front of what follows it: from two slashes to the end of the line, or from a slash
and a star to the next star and slash, or to the end of the text if there are none. -/
inductive ReadsComment : List Char → List Char → Prop
  | line {t rest : List Char} : '\n' ∉ t → (∀ c ∈ rest.head?, c = '\n') →
    ReadsComment ('/' :: '/' :: t) rest
  | block {t rest : List Char} : ¬ ['*', '/'] <:+: t →
    ReadsComment ('/' :: '*' :: (t ++ ['*', '/'])) rest
  | openBlock {t : List Char} : ¬ ['*', '/'] <:+: t → ReadsComment ('/' :: '*' :: t) []

theorem blockCloses_iff {s : List Char} : blockCloses s ↔ ['*', '/'] <:+: s := by
  induction s with
  | nil => simp [blockCloses]
  | cons c rest ih =>
    rw [blockCloses, Bool.or_eq_true, ih, List.infix_cons_iff, List.cons_prefix_cons,
      Bool.and_eq_true, decide_eq_true_eq, decide_eq_true_eq]
    refine or_congr_left (and_congr eq_comm ?_)
    cases rest with
    | nil => simp
    | cons d rest => simp [eq_comm]

/-- The first mark that ends a comment, with what is in front of it. -/
theorem exists_of_blockCloses {s : List Char} (h : blockCloses s) :
    ∃ t rest, s = t ++ '*' :: '/' :: rest ∧ blockCloses t = false := by
  induction s with
  | nil => cases h
  | cons c s ih =>
    by_cases hfirst : c = '*' ∧ s.head? = some '/'
    · obtain ⟨rfl, hhead⟩ := hfirst
      obtain ⟨rest, rfl⟩ := List.head?_eq_some_iff.1 hhead
      exact ⟨[], rest, rfl, rfl⟩
    · rw [blockCloses, Bool.or_eq_true] at h
      obtain ⟨t, rest, rfl, ht⟩ := ih (h.resolve_left (by simpa using hfirst))
      refine ⟨c :: t, rest, rfl, ?_⟩
      rw [blockCloses, ht, Bool.or_false, ← Bool.not_eq_true]
      intro hcloses
      rw [Bool.and_eq_true, decide_eq_true_eq, decide_eq_true_eq] at hcloses
      refine hfirst ⟨hcloses.1, ?_⟩
      rw [List.head?_append, hcloses.2]
      rfl

theorem blockCommentLength_of_closes {t : List Char} (h : blockCloses t = false)
    (rest : List Char) : blockCommentLength (t ++ '*' :: '/' :: rest) = t.length + 2 := by
  have hclosed : blockCloses (t ++ ['*', '/']) := by
    rw [blockCloses_iff]
    exact (List.suffix_append t _).isInfix
  have := blockCommentLength_append hclosed rest
  rwa [blockCommentLength_append_close h, List.append_assoc] at this

theorem blockCommentLength_of_open {s : List Char} (h : blockCloses s = false) :
    blockCommentLength s = s.length := by
  induction s with
  | nil => rfl
  | cons c s ih =>
    rw [blockCloses, Bool.or_eq_false_iff] at h
    rw [blockCommentLength_cons, if_neg (by simpa using h.1), ih h.2, List.length_cons]

/-- A comment is measured up to the first mark that ends it, or to the end. -/
theorem blockCommentLength_eq_iff {word rest : List Char} :
    blockCommentLength (word ++ rest) = word.length ↔
      (∃ t, word = t ++ ['*', '/'] ∧ ¬ ['*', '/'] <:+: t) ∨
        rest = [] ∧ ¬ ['*', '/'] <:+: word := by
  simp only [← blockCloses_iff, Bool.not_eq_true]
  constructor
  · intro h
    cases hcloses : blockCloses (word ++ rest) with
    | true =>
      obtain ⟨t, tail, heq, ht⟩ := exists_of_blockCloses hcloses
      rw [heq, blockCommentLength_of_closes ht] at h
      have htext : word ++ rest = (t ++ ['*', '/']) ++ tail := by
        rw [heq, List.append_assoc]
        rfl
      obtain ⟨rfl, -⟩ := List.append_inj htext (by simp [h])
      exact .inl ⟨t, rfl, ht⟩
    | false =>
      rw [blockCommentLength_of_open hcloses, List.length_append] at h
      obtain rfl : rest = [] := List.length_eq_zero_iff.1 (by omega)
      rw [List.append_nil] at hcloses
      exact .inr ⟨rfl, hcloses⟩
  · rintro (⟨t, rfl, ht⟩ | ⟨rfl, hword⟩)
    · rw [List.append_assoc]
      simp [blockCommentLength_of_closes ht]
    · rw [List.append_nil, blockCommentLength_of_open hword]

theorem extent_lineComment (s : List Char) :
    extent '/' ('/' :: s) = (.comment, runLength (· ≠ '\n') ('/' :: s)) := rfl

theorem extent_blockComment (s : List Char) :
    extent '/' ('*' :: s) = (.comment, blockCommentLength s + 1) := rfl

theorem exists_of_extent_comment {c : Char} {s : List Char} (h : (extent c s).1 = .comment) :
    c = '/' ∧ ∃ more, s = '/' :: more ∨ s = '*' :: more := by
  rw [extent] at h
  split_ifs at h with hblank hline hblock
  · rw [Bool.and_eq_true, decide_eq_true_eq, startsWith, decide_eq_true_eq] at hline
    obtain ⟨more, rfl⟩ := List.head?_eq_some_iff.1 hline.2
    exact ⟨hline.1, more, .inl rfl⟩
  · rw [Bool.and_eq_true, decide_eq_true_eq, startsWith, decide_eq_true_eq] at hblock
    obtain ⟨more, rfl⟩ := List.head?_eq_some_iff.1 hblock.2
    exact ⟨hblock.1, more, .inr rfl⟩
  · split at h <;> cases h

theorem runLength_notBreak_iff {t rest : List Char} :
    runLength (· ≠ '\n') (t ++ rest) = t.length ↔ '\n' ∉ t ∧ ∀ c ∈ rest.head?, c = '\n' := by
  constructor
  · intro h
    have hall := forall_mem_take_runLength (· ≠ '\n') (t ++ rest)
    rw [h, List.take_left] at hall
    refine ⟨fun hbreak => by simpa using hall _ hbreak, fun c hc => ?_⟩
    obtain ⟨more, rfl⟩ := List.head?_eq_some_iff.1 hc
    by_contra hne
    have hboth : ∀ d ∈ t ++ [c], (fun d => decide (d ≠ '\n')) d = true := by
      rw [List.forall_mem_append, List.forall_mem_singleton]
      exact ⟨hall, decide_eq_true hne⟩
    have hlong := length_le_runLength hboth (s := t ++ c :: more) (by simp)
    rw [h, List.length_append, List.length_singleton] at hlong
    omega
  · rintro ⟨ht, hrest⟩
    cases rest with
    | nil => rw [List.append_nil, runLength_eq_length (notBreak_of_notMem ht)]
    | cons c rest =>
      obtain rfl := hrest c rfl
      exact runLength_append_cons (notBreak_of_notMem ht) (by simp) rest

theorem readsComment_iff {c : Char} {word rest : List Char} :
    ReadsComment (c :: word) rest ↔ extent c (word ++ rest) = (.comment, word.length) := by
  constructor
  · intro h
    cases h with
    | @line t _ ht hrest =>
      -- The second slash is counted with the line, and it is no break either.
      have hslash : '\n' ∉ '/' :: t := List.not_mem_cons_of_ne_of_not_mem (by decide) ht
      have hrun := runLength_notBreak_iff.2 ⟨hslash, hrest⟩
      rw [List.cons_append] at hrun ⊢
      rw [extent_lineComment, hrun]
    | @block t _ ht =>
      rw [List.cons_append, extent_blockComment, blockCommentLength_eq_iff.2 (.inl ⟨t, rfl, ht⟩),
        List.length_cons]
    | openBlock ht =>
      rw [List.cons_append, extent_blockComment, blockCommentLength_eq_iff.2 (.inr ⟨rfl, ht⟩),
        List.length_cons]
  · intro h
    obtain ⟨rfl, more, hslash | hstar⟩ := exists_of_extent_comment (congrArg Prod.fst h)
    · rw [hslash, extent_lineComment, ← hslash] at h
      obtain ⟨hword, hrest⟩ := runLength_notBreak_iff.1 (Prod.mk.inj h).2
      cases word with
      | nil =>
        rw [List.nil_append] at hslash
        subst hslash
        cases hrest '/' rfl
      | cons d word =>
        obtain ⟨rfl, -⟩ := List.cons.inj hslash
        exact .line (fun hbreak => hword (List.mem_cons_of_mem '/' hbreak)) hrest
    · rw [hstar, extent_blockComment] at h
      obtain ⟨-, hlength⟩ := Prod.mk.inj h
      cases word with
      | nil => cases hlength
      | cons d word =>
        obtain ⟨rfl, rfl⟩ := List.cons.inj hstar
        rcases blockCommentLength_eq_iff.1 (Nat.add_right_cancel hlength) with
          ⟨t, rfl, ht⟩ | ⟨rfl, ht⟩
        · exact .block ht
        · exact .openBlock ht

/-! ## Lexemes of all kinds -/

/-- A lexeme of more than a single character in front of what follows it. -/
inductive ReadsProper : Kind → List Char → List Char → Prop
  | blank {t rest : List Char} : IsLongest (IsRun isWhiteSpace isWhiteSpace) t rest →
    ReadsProper .blank t rest
  | comment {t rest : List Char} : ReadsComment t rest → ReadsProper .comment t rest
  | quoted {t rest : List Char} : ReadsLiteral t rest → ReadsProper .quoted t rest
  | number {t rest : List Char} : IsLongest IsNumber t rest → ReadsProper .number t rest
  | identifier {t rest : List Char} :
    IsLongest (IsRun isIdentifierStart isIdentifierPart) t rest → ReadsProper .identifier t rest

/-- A lexeme of a kind in front of what follows it. A single character is one where no lexeme of
another kind begins. -/
def Reads (kind : Kind) (t rest : List Char) : Prop :=
  ReadsProper kind t rest ∨
    kind = .single ∧ t.length = 1 ∧ ∀ other u s, u ++ s = t ++ rest → ¬ ReadsProper other u s

theorem isWhiteSpace_of_extent {c : Char} {s : List Char} (h : (extent c s).1 = .blank) :
    isWhiteSpace c := by
  by_contra hc
  rw [extent, if_neg hc] at h
  split_ifs at h
  split at h <;> cases h

theorem readsProper_cons_iff {kind : Kind} {c : Char} {word rest : List Char} :
    ReadsProper kind (c :: word) rest ↔
      kind ≠ .single ∧ extent c (word ++ rest) = (kind, word.length) := by
  constructor
  · intro h
    cases h with
    | blank h =>
      obtain ⟨hc, hrun⟩ := isLongest_isRun_iff.1 h
      exact ⟨by simp, by rw [extent_of_isWhiteSpace hc, hrun]⟩
    | comment h => exact ⟨by simp, readsComment_iff.1 h⟩
    | quoted h => exact ⟨by simp, readsLiteral_iff.1 h⟩
    | number h => exact ⟨by simp, isLongest_isNumber_iff.1 h⟩
    | identifier h =>
      obtain ⟨hc, hrun⟩ := isLongest_isRun_iff.1 h
      exact ⟨by simp, by rw [extent_of_isIdentifierStart hc, hrun]⟩
  · rintro ⟨hkind, h⟩
    cases kind with
    | blank =>
      have hc := isWhiteSpace_of_extent (congrArg Prod.fst h)
      rw [extent_of_isWhiteSpace hc] at h
      exact .blank (isLongest_isRun_iff.2 ⟨hc, (Prod.mk.inj h).2⟩)
    | comment => exact .comment (readsComment_iff.2 h)
    | quoted => exact .quoted (readsLiteral_iff.2 h)
    | number => exact .number (isLongest_isNumber_iff.2 h)
    | identifier =>
      have hc := isIdentifierStart_of_extent (congrArg Prod.fst h)
      rw [extent_of_isIdentifierStart hc] at h
      exact .identifier (isLongest_isRun_iff.2 ⟨hc, (Prod.mk.inj h).2⟩)
    | single => exact absurd rfl hkind

theorem ReadsProper.ne_nil {kind : Kind} {t rest : List Char} (h : ReadsProper kind t rest) :
    t ≠ [] := by
  rintro rfl
  cases h with
  | blank h => obtain ⟨⟨_, _, h, -⟩, -⟩ := h; cases h
  | comment h => cases h
  | quoted h => cases h with | closed h => cases h
  | number h => exact h.1.ne_nil rfl
  | identifier h => obtain ⟨⟨_, _, h, -⟩, -⟩ := h; cases h

theorem extent_single {c : Char} {s : List Char} (h : (extent c s).1 = .single) :
    extent c s = (.single, 0) := by
  rw [extent] at h ⊢
  split_ifs at h ⊢ <;> first | rfl | cases h | skip
  split at h <;> cases h

/-- The form of a lexeme and its measure describe the same. -/
theorem reads_cons_iff {kind : Kind} {c : Char} {word rest : List Char} :
    Reads kind (c :: word) rest ↔ extent c (word ++ rest) = (kind, word.length) := by
  by_cases hkind : kind = .single
  · subst hkind
    have hproper : ¬ ReadsProper .single (c :: word) rest := fun h =>
      (readsProper_cons_iff.1 h).1 rfl
    rw [Reads, or_iff_right hproper]
    constructor
    · rintro ⟨-, hlength, hnone⟩
      obtain rfl : word = [] := List.length_eq_zero_iff.1 (Nat.succ.inj hlength)
      rw [List.nil_append]
      apply extent_single
      by_contra hother
      -- Another kind would be measured there, and would have its form.
      refine hnone (extent c rest).1 (c :: rest.take (extent c rest).2)
        (rest.drop (extent c rest).2) (by simp) (readsProper_cons_iff.2 ⟨hother, ?_⟩)
      rw [List.take_append_drop, List.length_take_of_le (extent_le_length c rest)]
    · intro h
      have hsingle := extent_single (congrArg Prod.fst h)
      rw [h] at hsingle
      obtain ⟨-, hlength⟩ := Prod.mk.inj hsingle
      refine ⟨rfl, by rw [List.length_cons, hlength], fun other u s heq hreads => ?_⟩
      obtain ⟨d, more, rfl⟩ := List.exists_cons_of_ne_nil hreads.ne_nil
      rw [List.cons_append, List.cons_append, List.cons.injEq] at heq
      obtain ⟨rfl, htail⟩ := heq
      obtain ⟨hother, hextent⟩ := readsProper_cons_iff.1 hreads
      rw [htail, h] at hextent
      exact hother (congrArg Prod.fst hextent).symm
  · rw [Reads, or_iff_left fun h => hkind h.1, readsProper_cons_iff, and_iff_right hkind]

theorem Reads.exists_cons {kind : Kind} {t rest : List Char} (h : Reads kind t rest) :
    ∃ c word, t = c :: word ∧ extent c (word ++ rest) = (kind, word.length) := by
  have hne : t ≠ [] := by
    rcases h with h | ⟨-, hlength, -⟩
    · exact h.ne_nil
    · rintro rfl
      cases hlength
  obtain ⟨c, word, rfl⟩ := List.exists_cons_of_ne_nil hne
  exact ⟨c, word, rfl, reads_cons_iff.1 h⟩

/-- At every place there is one lexeme only. -/
theorem Reads.unique {kind kind' : Kind} {t t' rest rest' : List Char} (h : Reads kind t rest)
    (h' : Reads kind' t' rest') (heq : t ++ rest = t' ++ rest') :
    kind = kind' ∧ t = t' ∧ rest = rest' := by
  obtain ⟨c, word, rfl, hextent⟩ := h.exists_cons
  obtain ⟨d, word', rfl, hextent'⟩ := h'.exists_cons
  rw [List.cons_append, List.cons_append, List.cons.injEq] at heq
  obtain ⟨rfl, htail⟩ := heq
  rw [htail, hextent'] at hextent
  obtain ⟨rfl, hlength⟩ := Prod.mk.inj hextent
  obtain ⟨rfl, rfl⟩ := List.append_inj htail hlength.symm
  exact ⟨rfl, rfl, rfl⟩

end DeckScript.Lexeme
