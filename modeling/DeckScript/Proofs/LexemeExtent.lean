import DeckScript.Token.Lexeme
import Mathlib.Data.List.Basic

/-!
# How far a lexeme looks ahead

Some lexemes are ended by what follows them, and an exponent or a hexadecimal number is looked for
up to three characters ahead. Still, a lexeme that ends in front of a place where an identifier
begins would end there as well if a blank stood at that place, whatever came behind it. Runs of
white space are the exception, since they would take in the blank.

## Main definitions

* `SettledAt` — a length that does not change when a blank takes the place of what follows
* `ExtentSettledAt` — a kind and a length that do not
* `IsBoundary` — a blank, or the first character of an identifier

## Main results

* `extent_append_congr` — a lexeme ends where it ended when a blank takes the place of a boundary
-/

namespace DeckScript.Lexeme

open Text

/-- What is measured by `f` and ends in front of `d` ends there as well when a blank takes the place
of `d` and of what comes behind it. -/
def SettledAt (d : Char) (f : List Char → Nat) : Prop :=
  ∀ q t t', f (q ++ d :: t) ≤ q.length → f (q ++ ' ' :: t') = f (q ++ d :: t)

variable {d : Char}

/-! ## Runs, comments and literals -/

theorem settledAt_runLength {p : Char → Bool} (hp : p ' ' = true → p d = true) :
    SettledAt d (runLength p) := by
  intro q t t' h
  rw [runLength, List.takeWhile_append] at h
  rw [runLength, runLength, List.takeWhile_append, List.takeWhile_append]
  split
  · rename_i hall
    rw [if_pos hall, List.length_append, List.takeWhile_cons] at h
    cases hd : p d with
    | true =>
      rw [hd, if_pos rfl, List.length_cons] at h
      omega
    | false =>
      have hblank : p ' ' = false := by
        rw [← Bool.not_eq_true]
        intro hblank
        rw [hp hblank] at hd
        cases hd
      simp [hd, hblank]
  · rfl

theorem blockCommentLength_cons (c : Char) (rest : List Char) :
    blockCommentLength (c :: rest) =
      if c = '*' ∧ rest.head? = some '/' then 2 else blockCommentLength rest + 1 := by
  rw [blockCommentLength.eq_def]
  split
  · contradiction
  · rename_i heq
    obtain ⟨rfl, rfl⟩ := List.cons.inj heq
    simp
  · rename_i hother heq
    obtain ⟨rfl, rfl⟩ := List.cons.inj heq
    rw [if_neg]
    rintro ⟨rfl, hhead⟩
    obtain ⟨more, rfl⟩ := List.head?_eq_some_iff.1 hhead
    exact hother more rfl rfl

theorem settledAt_blockCommentLength : SettledAt d blockCommentLength := by
  intro q t t'
  induction q with
  | nil =>
    intro h
    rw [List.nil_append, blockCommentLength_cons] at h
    split at h <;> simp at h
  | cons c q ih =>
    intro h
    rw [List.cons_append, blockCommentLength_cons] at h
    rw [List.cons_append, List.cons_append, blockCommentLength_cons, blockCommentLength_cons]
    cases q with
    | nil =>
      -- The comment would end with `d` or behind it.
      split at h
      · simp at h
      · rw [List.nil_append, blockCommentLength_cons] at h
        split at h <;> simp at h
    | cons e q =>
      rw [List.cons_append] at h
      rw [List.cons_append, List.cons_append, List.head?_cons, List.head?_cons]
      split
      · rfl
      · rename_i hopen
        rw [List.head?_cons, if_neg hopen, List.length_cons, Nat.add_le_add_iff_right] at h
        rw [← List.cons_append, ih h, List.cons_append]

theorem settledAt_rawLength (delimiter : Char) : SettledAt d (rawLength delimiter) := by
  intro q t t'
  induction q with
  | nil =>
    intro h
    rw [List.nil_append, rawLength] at h
    split at h <;> simp at h
  | cons c q ih =>
    intro h
    rw [List.cons_append, rawLength] at h
    rw [List.cons_append, List.cons_append, rawLength, rawLength]
    split
    · rfl
    · rename_i hopen
      rw [if_neg hopen, List.length_cons, Nat.add_le_add_iff_right] at h
      rw [ih h]

theorem quotedLength_escape (delimiter c : Char) (rest : List Char) :
    quotedLength delimiter ('\\' :: c :: rest) =
      if c = '\n' then 0 else quotedLength delimiter rest + 2 := by
  rw [quotedLength]

theorem quotedLength_cons {c : Char} (hc : c ≠ '\\') (delimiter : Char) (rest : List Char) :
    quotedLength delimiter (c :: rest) =
      if c = delimiter then 1 else quotedLength delimiter rest + 1 := by
  rw [quotedLength]
  · rintro c' rest' rfl -
    exact hc rfl
  · rintro rfl -
    exact hc rfl

theorem settledAt_quotedLength (hbackslash : d ≠ '\\') (hbreak : d ≠ '\n') (delimiter : Char) :
    SettledAt d (quotedLength delimiter) := by
  intro q t t' h
  induction hn : q.length using Nat.strongRecOn generalizing q with
  | ind n ih =>
    cases q with
    | nil =>
      rw [List.nil_append, quotedLength_cons hbackslash] at h
      split at h <;> simp at h
    | cons c q =>
      by_cases hc : c = '\\'
      · subst hc
        cases q with
        | nil =>
          -- The backslash would take `d` along.
          rw [List.singleton_append, quotedLength_escape, if_neg hbreak] at h
          simp at h
        | cons e q =>
          rw [List.cons_append, List.cons_append, quotedLength_escape] at h ⊢
          rw [List.cons_append, List.cons_append, quotedLength_escape]
          split
          · rfl
          · rename_i he
            rw [if_neg he, List.length_cons, List.length_cons] at h
            rw [ih q.length (by simp only [List.length_cons] at hn; omega) q (by omega) rfl]
      · rw [List.cons_append, quotedLength_cons hc] at h
        rw [List.cons_append, List.cons_append, quotedLength_cons hc, quotedLength_cons hc]
        split
        · rfl
        · rename_i hopen
          rw [if_neg hopen, List.length_cons] at h
          rw [ih q.length (by simp only [List.length_cons] at hn; omega) q (by omega) rfl]

/-! ## Numbers -/

theorem fractionLength_cons (c : Char) (rest : List Char) :
    fractionLength (c :: rest) = if c = '.' then runLength Char.isDigit rest + 1 else 0 := by
  rw [fractionLength.eq_def]
  split
  · rename_i heq
    obtain ⟨rfl, rfl⟩ := List.cons.inj heq
    rfl
  · rename_i hother
    rw [if_neg]
    rintro rfl
    exact hother rest rfl

theorem settledAt_digits : SettledAt d (runLength Char.isDigit) :=
  settledAt_runLength (p := Char.isDigit) fun h => absurd h (by decide)

theorem settledAt_fractionLength : SettledAt d fractionLength := by
  intro q t t' h
  cases q with
  | nil =>
    rw [List.nil_append, List.length_nil, Nat.le_zero] at h
    rw [List.nil_append, List.nil_append, h, fractionLength_cons, if_neg (by decide)]
  | cons c q =>
    rw [List.cons_append, fractionLength_cons] at h
    rw [List.cons_append, List.cons_append, fractionLength_cons, fractionLength_cons]
    split
    · rename_i hpoint
      rw [if_pos hpoint, List.length_cons, Nat.add_le_add_iff_right] at h
      rw [settledAt_digits q t t' h]
    · rfl

theorem runLength_digits_blank (rest : List Char) : runLength Char.isDigit (' ' :: rest) = 0 := by
  rw [runLength, List.takeWhile_cons_of_neg (by decide), List.length_nil]

theorem settledAt_exponentLength : SettledAt d exponentLength := by
  intro q t t' h
  match q with
  | [] =>
    rw [List.nil_append, List.length_nil, Nat.le_zero] at h
    rw [List.nil_append, List.nil_append, h]
    cases t' with
    | nil => rfl
    | cons c rest => rw [exponentLength, if_neg (by decide)]
  | [mark] =>
    -- Whatever `d` is, the digits of an exponent would begin with it or behind it.
    have hnone : exponentLength (mark :: d :: t) = 0 := by
      rw [List.singleton_append, exponentLength, List.length_singleton] at h
      rw [exponentLength]
      split_ifs at h ⊢ <;> omega
    have hsign : isSign ' ' = false := by decide
    rw [List.singleton_append, List.singleton_append, hnone, exponentLength, hsign,
      runLength_digits_blank]
    simp
  | mark :: c :: q =>
    simp only [List.cons_append, exponentLength, List.length_cons] at h ⊢
    by_cases hmark : isExponentMark mark
    · rw [if_pos hmark] at h
      rw [if_pos hmark, if_pos hmark]
      by_cases hsign : isSign c
      · rw [if_pos hsign] at h
        have hdigits : runLength Char.isDigit (q ++ d :: t) ≤ q.length := by
          split_ifs at h <;> omega
        rw [if_pos hsign, if_pos hsign, settledAt_digits q t t' hdigits]
      · rw [if_neg hsign, ← List.cons_append] at h
        have hdigits : runLength Char.isDigit (c :: q ++ d :: t) ≤ (c :: q).length := by
          rw [List.length_cons]
          split_ifs at h <;> omega
        rw [if_neg hsign, if_neg hsign, ← List.cons_append, ← List.cons_append,
          settledAt_digits (c :: q) t t' hdigits]
    · rw [if_neg hmark, if_neg hmark]

/-- What is measured behind a settled length is settled together with it. -/
theorem SettledAt.add_drop {f g : List Char → Nat} (hf : SettledAt d f) (hg : SettledAt d g) :
    SettledAt d fun s => f s + g (s.drop (f s)) := by
  intro q t t' h
  dsimp only at h ⊢
  have hfirst := hf q t t' (by omega)
  have hdrop (rest : List Char) :
      (q ++ rest).drop (f (q ++ d :: t)) = q.drop (f (q ++ d :: t)) ++ rest :=
    List.drop_append_of_le_length (by omega)
  rw [hdrop] at h
  rw [hfirst, hdrop, hdrop, hg (q.drop (f (q ++ d :: t))) t t']
  rw [List.length_drop]
  omega

theorem settledAt_decimalExtent : SettledAt d decimalExtent :=
  (settledAt_digits.add_drop settledAt_fractionLength).add_drop settledAt_exponentLength

theorem settledAt_pointExtent : SettledAt d pointExtent :=
  settledAt_digits.add_drop settledAt_exponentLength

theorem settledAt_hexDigits : SettledAt d (runLength isHexDigit) :=
  settledAt_runLength (p := isHexDigit) fun h => absurd h (by decide)

theorem two_le_of_hexExtent? {s : List Char} {n : Nat} (h : n ∈ hexExtent? s) : 2 ≤ n := by
  match s with
  | [] | [_] => cases h
  | mark :: c :: rest =>
    rw [hexExtent?] at h
    split at h
    · obtain rfl := Option.some.inj h
      omega
    · cases h

theorem hexExtent?_congr {q t : List Char} (t' : List Char)
    (h : ∀ n ∈ hexExtent? (q ++ d :: t), n ≤ q.length) :
    hexExtent? (q ++ ' ' :: t') = hexExtent? (q ++ d :: t) := by
  have hshort (hq : q.length < 2) : hexExtent? (q ++ d :: t) = none := by
    rw [Option.eq_none_iff_forall_not_mem]
    intro n hn
    have := two_le_of_hexExtent? hn
    have := h n hn
    omega
  match q with
  | [] =>
    rw [hshort (by simp)]
    cases t' with
    | nil => rfl
    | cons c rest => rw [List.nil_append, hexExtent?, if_neg (by simp)]
  | [mark] =>
    have hblank : isHexDigit ' ' = false := by decide
    rw [hshort (by simp), List.singleton_append, hexExtent?, hblank, if_neg (by simp)]
  | mark :: c :: q =>
    simp only [List.cons_append, hexExtent?] at h ⊢
    by_cases hhex : (mark = 'x' ∨ mark = 'X') ∧ isHexDigit c
    · rw [if_pos hhex] at h
      have hlength := h _ rfl
      rw [List.length_cons, List.length_cons, Nat.add_le_add_iff_right] at hlength
      rw [if_pos hhex, if_pos hhex, settledAt_hexDigits q t t' hlength]
    · rw [if_neg hhex, if_neg hhex]

/-! ## Lexemes -/

/-- A blank, or the first character of an identifier. -/
def IsBoundary (d : Char) : Prop := d = ' ' ∨ isIdentifierStart d

theorem isDigit_eq_false_of_isIdentifierStart {c : Char} (h : isIdentifierStart c) :
    c.isDigit = false := by
  rw [isIdentifierStart, Bool.or_eq_true, decide_eq_true_eq] at h
  rcases h with h | rfl
  · -- All letters lie above the digits.
    obtain ⟨r, hr, hlow, -⟩ := inRanges_iff.1 h
    have habove : ∀ r ∈ Letter.ranges, 57 < r.1 := by decide +kernel
    have hc := habove r hr
    rw [Char.isDigit, Bool.and_eq_false_iff]
    refine .inr (decide_eq_false ?_)
    rw [UInt32.le_iff_toNat_le]
    change ¬ c.toNat ≤ 57
    omega
  · decide

theorem isIdentifierPart_blank : isIdentifierPart ' ' = false := by decide +kernel

namespace IsBoundary

variable (hd : IsBoundary d)
include hd

theorem isDigit_eq_false : d.isDigit = false := by
  rcases hd with rfl | hd
  · decide
  · exact isDigit_eq_false_of_isIdentifierStart hd

theorem ne_of_isIdentifierStart {c : Char} (hc : isIdentifierStart c = false) (hblank : c ≠ ' ') :
    d ≠ c := by
  rintro rfl
  rcases hd with rfl | hd
  · exact hblank rfl
  · rw [hc] at hd
    cases hd

theorem startsWith_append {c : Char} (hc : isIdentifierStart c = false) (hblank : c ≠ ' ')
    (q t t' : List Char) : startsWith c (q ++ ' ' :: t') = startsWith c (q ++ d :: t) := by
  cases q with
  | nil =>
    have hne := hd.ne_of_isIdentifierStart hc hblank
    simp [startsWith, hne, Ne.symm hblank]
  | cons e q => rfl

end IsBoundary

/-! ## Kinds with their lengths -/

/-- The kind and the length that `f` finds do not change either when what is found ends in front of
`d` and a blank takes the place of `d` and of what comes behind it. -/
def ExtentSettledAt (d : Char) (f : List Char → Kind × Nat) : Prop :=
  ∀ q t t', (f (q ++ d :: t)).2 ≤ q.length → f (q ++ ' ' :: t') = f (q ++ d :: t)

theorem SettledAt.extent {f : List Char → Nat} (hf : SettledAt d f) (kind : Kind) :
    ExtentSettledAt d fun s => (kind, f s) := by
  intro q t t' h
  dsimp only at h ⊢
  rw [hf q t t' h]

/-- What is measured behind one more character is settled with it. -/
theorem SettledAt.tail {f : List Char → Nat} (hf : SettledAt d f) :
    SettledAt d fun s => f s.tail + 1 := by
  intro q t t' h
  cases q with
  | nil => exact absurd h (Nat.not_succ_le_zero _)
  | cons c q =>
    simp only [List.cons_append, List.tail_cons, List.length_cons, Nat.add_le_add_iff_right] at h ⊢
    rw [hf q t t' h]

namespace ExtentSettledAt

variable {f g : List Char → Kind × Nat}

/-- The choice between two kinds is settled if what it depends on is. -/
theorem ite {p : List Char → Prop} [DecidablePred p]
    (hp : ∀ q t t', p (q ++ ' ' :: t') ↔ p (q ++ d :: t)) (hf : ExtentSettledAt d f)
    (hg : ExtentSettledAt d g) : ExtentSettledAt d fun s => if p s then f s else g s := by
  intro q t t' h
  dsimp only at h ⊢
  by_cases hd : p (q ++ d :: t)
  · rw [if_pos hd] at h
    rw [if_pos ((hp q t t').2 hd), if_pos hd, hf q t t' h]
  · rw [if_neg hd] at h
    rw [if_neg (mt (hp q t t').1 hd), if_neg hd, hg q t t' h]

/-- So is a choice that does not depend on the text. -/
theorem ite_const {P : Prop} [Decidable P] (hf : P → ExtentSettledAt d f)
    (hg : ¬P → ExtentSettledAt d g) : ExtentSettledAt d fun s => if P then f s else g s := by
  by_cases h : P
  · simpa only [if_pos h] using hf h
  · simpa only [if_neg h] using hg h

end ExtentSettledAt

/-- The extent of a number that begins with a digit. -/
theorem extentSettledAt_number (c : Char) :
    ExtentSettledAt d fun s =>
      match if c = '0' then hexExtent? s else none with
      | some n => (.number, n)
      | none => (.number, decimalExtent s) := by
  intro q t t' h
  dsimp only at h ⊢
  have hhex : (if c = '0' then hexExtent? (q ++ ' ' :: t') else none) =
      if c = '0' then hexExtent? (q ++ d :: t) else none := by
    split
    · rename_i hzero
      apply hexExtent?_congr
      intro n hn
      rw [if_pos hzero, Option.mem_def.1 hn] at h
      exact h
    · rfl
  rw [hhex]
  cases hx : if c = '0' then hexExtent? (q ++ d :: t) else none with
  | some n => rfl
  | none =>
    rw [hx] at h
    dsimp only at h ⊢
    rw [settledAt_decimalExtent q t t' h]

/-- A lexeme that is no white space and ends in front of a boundary ends there as well when a blank
takes the place of the boundary and of what comes behind it. -/
theorem extent_append_congr (hd : IsBoundary d) {c : Char} (hc : isWhiteSpace c = false)
    {q t : List Char} (t' : List Char) (h : (extent c (q ++ d :: t)).2 ≤ q.length) :
    extent c (q ++ ' ' :: t') = extent c (q ++ d :: t) := by
  have hbreak : d ≠ '\n' := hd.ne_of_isIdentifierStart (by decide +kernel) (by decide)
  have hbackslash : d ≠ '\\' := hd.ne_of_isIdentifierStart (by decide +kernel) (by decide)
  have hslash := hd.startsWith_append (c := '/') (by decide +kernel) (by decide)
  have hstar := hd.startsWith_append (c := '*') (by decide +kernel) (by decide)
  have hdigit (q t t' : List Char) : (q ++ ' ' :: t').head?.any Char.isDigit =
      (q ++ d :: t).head?.any Char.isDigit := by
    cases q with
    | nil => simp [hd.isDigit_eq_false]
    | cons e q => rfl
  have hline : SettledAt d (runLength fun e => decide (e ≠ '\n')) :=
    settledAt_runLength fun _ => decide_eq_true hbreak
  have hidentifier : SettledAt d (runLength isIdentifierPart) :=
    settledAt_runLength fun hp => absurd hp (by simp [isIdentifierPart_blank])
  suffices hextent : ExtentSettledAt d (extent c) from hextent q t t' h
  unfold extent
  -- One choice for each kind, in the order in which they are looked for.
  refine .ite_const (fun hblank => absurd hblank (by simp [hc])) fun _ => ?_
  refine .ite (fun q t t' => by rw [hslash q t t']) (hline.extent _) ?_
  refine .ite (fun q t t' => by rw [hstar q t t'])
    (settledAt_blockCommentLength.tail.extent _) ?_
  refine .ite_const (fun _ => (settledAt_quotedLength hbackslash hbreak c).extent _) fun _ => ?_
  refine .ite_const (fun _ => (settledAt_rawLength c).extent _) fun _ => ?_
  refine .ite_const (fun _ => extentSettledAt_number c) fun _ => ?_
  refine .ite (fun q t t' => by rw [hdigit q t t']) (settledAt_pointExtent.extent _) ?_
  refine .ite_const (fun _ => hidentifier.extent _) fun _ => ?_
  exact fun _ _ _ _ => rfl

end DeckScript.Lexeme
