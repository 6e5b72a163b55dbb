import DeckScript.Proofs.NumberText
import DeckScript.Token.Lexeme

/-!
# Number tokens

A decimal number token has the shape that reading a number expects: digits with an optional point,
and an exponent that has digits of its own. So every such token is a number's text.

## Main definitions

* `IsDecimalNumber` — a text that is one decimal number token

## Main results

* `IsDecimalNumber.exists_parse?` — a decimal number token is read as a number
-/

namespace DeckScript

open Lexeme

theorem drop_runLength (p : Char → Bool) (s : List Char) :
    s.drop (runLength p s) = s.dropWhile p := by
  have hsplit : (s.takeWhile p ++ s.dropWhile p).drop (s.takeWhile p).length = s.dropWhile p :=
    List.drop_left
  rwa [List.takeWhile_append_dropWhile] at hsplit

namespace Numeral

theorem splitFraction_snd (s : List Char) : (splitFraction s).2 = s.drop (fractionLength s) := by
  rw [splitFraction.eq_def]
  split
  · rw [fractionLength, List.drop_succ_cons, drop_runLength]
  · rename_i hpoint
    rw [fractionLength.eq_def]
    split
    · exact (hpoint _ rfl).elim
    · rfl

/-- A run of digits that reaches to the end leaves nothing else. -/
theorem all_isDigit_of_runLength {s : List Char} (h : runLength Char.isDigit s = s.length) :
    s.all Char.isDigit := by
  rw [List.all_eq_true]
  intro c hc
  have hself : s.takeWhile Char.isDigit = s := by
    rw [runLength] at h
    exact (List.takeWhile_prefix _).eq_of_length h
  exact List.mem_takeWhile_imp (hself.symm ▸ hc)

/-- A mark with digits behind its sign, and nothing behind them, is read. -/
theorem exists_exponent?_of_splitSign {mark : Char} (hmark : isExponentMark mark)
    {s ds : List Char} (hsplit : (splitSign s).2 = ds) (hne : ds ≠ [])
    (hrun : runLength Char.isDigit ds = ds.length) : ∃ e, exponent? (mark :: s) = some e := by
  have hmark : mark = 'e' ∨ mark = 'E' := by simpa [isExponentMark] using hmark
  have hread : ¬ (ds.isEmpty ∨ !ds.all Char.isDigit) := by
    simp [hne, all_isDigit_of_runLength hrun]
  rw [exponent?, if_pos hmark]
  dsimp only
  rw [hsplit, if_neg hread]
  exact ⟨_, rfl⟩

/-- An exponent that reaches to the end is read. -/
theorem exists_exponent?_of_exponentLength {s : List Char} (h : exponentLength s = s.length) :
    ∃ e, exponent? s = some e := by
  match s, h with
  | [], _ => exact ⟨0, rfl⟩
  | mark :: c :: rest, h =>
    have hmark : isExponentMark mark := by
      by_contra hmark
      rw [exponentLength, if_neg hmark] at h
      cases h
    rw [exponentLength, if_pos hmark] at h
    by_cases hsign : isSign c
    · have hc : c = '+' ∨ c = '-' := by simpa [isSign] using hsign
      have hsplit : (splitSign (c :: rest)).2 = rest := by rcases hc with rfl | rfl <;> rfl
      rw [if_pos hsign] at h
      split at h
      · cases h
      · rename_i hsome
        refine exists_exponent?_of_splitSign hmark hsplit ?_ (Nat.add_right_cancel h)
        rintro rfl
        exact hsome rfl
    · have hc : c ≠ '+' ∧ c ≠ '-' := by simpa [isSign] using hsign
      have hsplit : (splitSign (c :: rest)).2 = c :: rest := by rw [splitSign_cons hc.2 hc.1]
      rw [if_neg hsign] at h
      split at h
      · cases h
      · exact exists_exponent?_of_splitSign hmark hsplit (List.cons_ne_nil c rest)
          (Nat.add_right_cancel h)

/-- Digits, a point with digits and an exponent that reaches to the end are read. -/
theorem exists_decimal? {s : List Char}
    (hne : s.takeWhile Char.isDigit ++ (splitFraction (s.dropWhile Char.isDigit)).1 ≠ [])
    (hexponent : exponentLength (splitFraction (s.dropWhile Char.isDigit)).2 =
      (splitFraction (s.dropWhile Char.isDigit)).2.length) :
    ∃ d, decimal? s = some d := by
  obtain ⟨e, he⟩ := exists_exponent?_of_exponentLength hexponent
  rw [decimal?]
  dsimp only
  rw [if_neg (by rwa [List.isEmpty_iff]), he]
  exact ⟨_, rfl⟩

/-- A token that begins with a digit and ends where the decimal number does is read. -/
theorem exists_decimal?_of_decimalExtent {c : Char} {rest : List Char} (hc : c.isDigit)
    (h : decimalExtent rest = rest.length) : ∃ d, decimal? (c :: rest) = some d := by
  have hdrop : (c :: rest).dropWhile Char.isDigit = rest.drop (runLength Char.isDigit rest) := by
    rw [List.dropWhile_cons_of_pos hc, drop_runLength]
  refine exists_decimal? ?_ ?_
  · rw [List.takeWhile_cons_of_pos hc]
    exact List.cons_ne_nil c _
  · rw [hdrop, splitFraction_snd, List.drop_drop, List.length_drop]
    rw [decimalExtent] at h
    omega

/-- So is one that begins with a point in front of a digit. -/
theorem exists_decimal?_of_pointExtent {rest : List Char} (hdigit : rest.head?.any Char.isDigit)
    (h : pointExtent rest = rest.length) : ∃ d, decimal? ('.' :: rest) = some d := by
  have hdrop : ('.' :: rest).dropWhile Char.isDigit = '.' :: rest := rfl
  refine exists_decimal? ?_ ?_
  · cases rest with
    | nil => cases hdigit
    | cons c rest =>
      have hc : c.isDigit := by simpa using hdigit
      rw [hdrop, splitFraction, List.takeWhile_cons_of_pos hc]
      exact List.append_ne_nil_of_right_ne_nil _ (List.cons_ne_nil c _)
  · rw [hdrop, splitFraction_snd, fractionLength, List.drop_succ_cons, List.length_drop]
    rw [pointExtent] at h
    omega

end Numeral

/-! ## Tokens -/

/-- A text that is one number token, and not a hexadecimal one. -/
def IsDecimalNumber (s : String) : Prop :=
  ∃ c rest, s.toList = c :: rest ∧ extent c rest = (.number, rest.length) ∧
    (c = '0' → hexExtent? rest = none)

/-- A decimal number token is read as a number. -/
theorem IsDecimalNumber.exists_parse? {s : String} (h : IsDecimalNumber s) :
    ∃ v, Number.parse? s = some v := by
  obtain ⟨c, rest, hs, hextent, hhex⟩ := h
  have hdecimal : (c.isDigit ∨ c = '.') ∧ ∃ d, Numeral.decimal? (c :: rest) = some d := by
    have hnone : (if c = '0' then hexExtent? rest else none) = none := by
      split
      · exact hhex ‹_›
      · rfl
    rw [extent, hnone] at hextent
    split_ifs at hextent with hblank hline hblock hquoted hraw hdigit hpoint hidentifier
    -- Only a digit and a point in front of one begin a number.
    all_goals obtain ⟨hkind, hlength⟩ := Prod.mk.inj hextent
    all_goals cases hkind
    · exact ⟨.inl hdigit, Numeral.exists_decimal?_of_decimalExtent hdigit hlength⟩
    · rw [Bool.and_eq_true, decide_eq_true_eq] at hpoint
      obtain ⟨rfl, hhead⟩ := hpoint
      exact ⟨.inr rfl, Numeral.exists_decimal?_of_pointExtent hhead hlength⟩
  obtain ⟨hc, d, hd⟩ := hdecimal
  have hread := Numeral.read?_cons hc rest false
  rw [if_neg Bool.false_ne_true, hd, ← hs] at hread
  exact ⟨_, by rw [Number.parse?, hread, Option.map_some, Option.map_some]⟩

end DeckScript
