import DeckScript.Number
import DeckScript.Proofs.NearestMagnitude
import Mathlib

/-!
# The text of a number reads back

A number is written with digits that read back as its magnitude, and the text is laid out so that
reading it finds these digits and their exponent again. So the text of a number reads back as the
number itself, with the sign of zero, infinities and what is not a number among them.

The lemma that packing undoes unpacking comes with the whole of Mathlib only.

## Main results

* `Numeral.decimal?_decimalChars` — a decimal's text reads as a decimal of the same magnitude
* `Number.parse?_text` — a number's text reads as the number
-/

namespace DeckScript

/-! ## Bits -/

namespace Number

/-- The sign and the magnitude make up the number. -/
theorem ofMagnitude_magnitude (v : Float) : ofMagnitude (isNegative v) (magnitude v) = v := by
  have hlt : v.toBits.toNat < 2 * signBit := v.toBits.toNat_lt
  have hbits : magnitude v + (if isNegative v then signBit else 0) = v.toBits.toNat := by
    rw [magnitude, isNegative]
    by_cases hsign : signBit ≤ v.toBits.toNat
    · rw [if_pos (decide_eq_true hsign), Nat.mod_eq_sub_mod hsign, Nat.mod_eq_of_lt (by omega)]
      omega
    · rw [if_neg (by simpa using hsign), Nat.mod_eq_of_lt (Nat.lt_of_not_le hsign)]
      rfl
  rw [ofMagnitude, hbits, UInt64.ofNat_toNat, Float.ofBits_toBits]

/-- Only one number has a magnitude above infinity. -/
theorem eq_notANumber {v : Float} (h : Magnitude.infinity < magnitude v) : v = notANumber := by
  obtain ⟨⟨bits, hvalid⟩⟩ := v
  have hmagnitude : 0x7FF0000000000000 < bits.toNat % 0x8000000000000000 := h
  have hbits : bits.toBitVec =
      Float.Model.UnpackedFloat.packedNaN Float.Model.Format.binary64 := by
    apply hvalid.eq_packedNaN
    · rw [Float.Model.UnpackedFloat.unpackExponent_def]
      apply BitVec.eq_of_toNat_eq
      rw [BitVec.extractLsb'_toNat, Nat.shiftRight_eq_div_pow]
      change bits.toNat / 2 ^ 52 % 2 ^ 11 = 2047
      omega
    · rw [Float.Model.UnpackedFloat.unpackMantissa_def]
      intro hzero
      have htoNat := congrArg BitVec.toNat hzero
      rw [BitVec.extractLsb'_toNat, Nat.shiftRight_eq_div_pow] at htoNat
      change bits.toNat / 2 ^ 0 % 2 ^ 52 = 0 at htoNat
      omega
  rw [← Float.toBits_inj, ← UInt64.toBitVec_inj]
  exact hbits

end Number

/-! ## Reading digits -/

namespace Numeral

/-- What does not go on with a digit. -/
def StopsDigits (s : List Char) : Prop := ∀ c ∈ s.head?, c.isDigit = false

section Digits

variable {ds rest : List Char} (hds : ∀ c ∈ ds, c.isDigit) (hrest : StopsDigits rest)
include hds hrest

theorem takeWhile_digits : (ds ++ rest).takeWhile Char.isDigit = ds := by
  rw [List.takeWhile_append_of_pos hds]
  cases rest with
  | nil => simp
  | cons c rest =>
    rw [List.takeWhile_cons_of_neg (by simp [hrest c rfl]), List.append_nil]

theorem dropWhile_digits : (ds ++ rest).dropWhile Char.isDigit = rest := by
  rw [List.dropWhile_append_of_pos hds]
  cases rest with
  | nil => rfl
  | cons c rest => rw [List.dropWhile_cons_of_neg (by simp [hrest c rfl])]

end Digits

/-- Digits without a point, and an exponent. -/
theorem decimal?_digits {ds rest : List Char} (hds : ∀ c ∈ ds, c.isDigit) (hne : ds ≠ [])
    (hrest : StopsDigits rest) (hpoint : rest.head? ≠ some '.') {e : Int}
    (he : exponent? rest = some e) : decimal? (ds ++ rest) = some ⟨digitsValue ds, e⟩ := by
  have hfraction : splitFraction rest = ([], rest) := by
    rw [splitFraction.eq_def]
    split
    · exact (hpoint rfl).elim
    · rfl
  simp only [decimal?, takeWhile_digits hds hrest, dropWhile_digits hds hrest, hfraction,
    List.append_nil, List.isEmpty_iff, if_neg hne, he, Option.map_some, List.length_nil]
  simp

/-- Digits with a point among them, and an exponent. -/
theorem decimal?_point {whole fraction rest : List Char} (hwhole : ∀ c ∈ whole, c.isDigit)
    (hfraction : ∀ c ∈ fraction, c.isDigit) (hne : whole ++ fraction ≠ [])
    (hrest : StopsDigits rest) {e : Int} (he : exponent? rest = some e) :
    decimal? (whole ++ '.' :: (fraction ++ rest)) =
      some ⟨digitsValue (whole ++ fraction), e - fraction.length⟩ := by
  have hpoint : StopsDigits ('.' :: (fraction ++ rest)) := by
    intro c hc
    cases hc
    decide
  have hsplit : splitFraction ('.' :: (fraction ++ rest)) = (fraction, rest) := by
    rw [splitFraction, takeWhile_digits hfraction hrest, dropWhile_digits hfraction hrest]
  simp only [decimal?, takeWhile_digits hwhole hpoint, dropWhile_digits hwhole hpoint, hsplit,
    List.isEmpty_iff, if_neg hne, he, Option.map_some]

/-! ## Reading what was written -/

open Number

theorem digitsValue_digitChars (n : Nat) : digitsValue (digitChars n) = n :=
  Nat.ofDigitChars_ten_toDigits

theorem isDigit_of_mem_digitChars {n : Nat} : ∀ c ∈ digitChars n, c.isDigit :=
  fun _ => Nat.isDigit_of_mem_toDigits (by decide) (by decide)

theorem digitChars_ne_nil (n : Nat) : digitChars n ≠ [] := Nat.toDigits_ne_nil

theorem isDigit_of_mem_zeros {k : Nat} : ∀ c ∈ List.replicate k '0', c.isDigit := by
  intro c hc
  rw [List.eq_of_mem_replicate hc]
  decide

/-- Zeros in front of digits do not count. -/
theorem digitsValue_zeros_append (k n : Nat) :
    digitsValue (List.replicate k '0' ++ digitChars n) = n := by
  rw [digitsValue, Nat.ofDigitChars_append, Nat.ofDigitChars_replicate_zero, Nat.mul_zero]
  exact digitsValue_digitChars n

/-- Zeros behind digits are powers of ten. -/
theorem digitsValue_append_zeros (k n : Nat) :
    digitsValue (digitChars n ++ List.replicate k '0') = n * 10 ^ k := by
  have hdigits : Nat.ofDigitChars 10 (digitChars n) 0 = n := digitsValue_digitChars n
  rw [digitsValue, Nat.ofDigitChars_append, Nat.ofDigitChars_replicate_zero, hdigits, Nat.mul_comm]

/-- A point among the digits makes the exponent smaller by the digits behind it. -/
theorem decimal?_pointAfter {ds rest : List Char} (hds : ∀ c ∈ ds, c.isDigit) (hne : ds ≠ [])
    (hrest : StopsDigits rest) (hpoint : rest.head? ≠ some '.') {e : Int}
    (he : exponent? rest = some e) (k : Nat) :
    decimal? (pointAfter k ds ++ rest) =
      some ⟨digitsValue ds, e - (ds.length - k : Nat)⟩ := by
  rw [pointAfter, ← List.length_drop]
  split
  · rename_i htail
    rw [List.isEmpty_iff] at htail
    rw [htail, decimal?_digits hds hne hrest hpoint he]
    simp
  · have htake : ∀ c ∈ ds.take k, c.isDigit := fun c hc => hds c (List.mem_of_mem_take hc)
    have hdrop : ∀ c ∈ ds.drop k, c.isDigit := fun c hc => hds c (List.mem_of_mem_drop hc)
    rw [List.append_assoc, List.cons_append, decimal?_point htake hdrop ?_ hrest he,
      List.take_append_drop]
    rwa [List.take_append_drop]

/-- An exponent reads back. -/
theorem exponent?_exponentChars (l : Layout) (e : Int) :
    exponent? ('e' :: exponentChars l e) = some e := by
  obtain ⟨ds, hds⟩ : ∃ ds, ds = List.replicate
      (l.exponentDigits - (digitChars e.natAbs).length) '0' ++ digitChars e.natAbs := ⟨_, rfl⟩
  have hall : ds.all Char.isDigit := by
    rw [List.all_eq_true, hds]
    exact List.forall_mem_append.2 ⟨isDigit_of_mem_zeros, isDigit_of_mem_digitChars⟩
  have hne : ds ≠ [] := by
    rw [hds]
    simp [digitChars_ne_nil]
  have hvalue : digitsValue ds = e.natAbs := by
    rw [hds, digitsValue_zeros_append]
  have hchars : exponentChars l e = (if e < 0 then '-' else '+') :: ds := by rw [hds]; rfl
  have hread : ¬ (ds.isEmpty ∨ !ds.all Char.isDigit) := by simp [hall, hne]
  rw [hchars, exponent?, if_pos (.inl rfl)]
  by_cases hsign : e < 0
  · simp only [if_pos hsign, splitSign, if_neg hread, hvalue]
    simp only [if_true, Option.some.injEq]
    omega
  · simp only [if_neg hsign, splitSign, if_neg hread, hvalue]
    simp only [Bool.false_eq_true, if_false, Option.some.injEq]
    omega

/-! ## Decimals -/

/-- Zeros at the end of the digits are as good as an exponent. -/
theorem magnitude_mul_pow (n : Nat) {k : Nat} (hk : k ≤ 310) :
    Decimal.magnitude ⟨n * 10 ^ k, 0⟩ = Decimal.magnitude ⟨n, k⟩ := by
  have hzero : n * 10 ^ k = 0 ↔ n = 0 := by simp
  have htiny (m : Nat) {e : Int} (he : 0 ≤ e) : Decimal.isTiny ⟨m, e⟩ = false := by
    rw [Decimal.isTiny, decide_eq_false_iff_not]
    dsimp only
    omega
  have hexponent : ¬ 310 < (k : Int) := by omega
  rw [Decimal.magnitude, Decimal.magnitude, htiny _ (Int.le_refl 0), htiny n (Int.natCast_nonneg k)]
  simp only [hzero, hexponent]
  simp [Decimal.num, Decimal.den]

variable (d : Decimal)

theorem length_digitChars : (digitChars d.digits).length = d.length := rfl

theorem one_le_length : 1 ≤ d.length := Nat.length_toDigits_pos

theorem stopsDigits_nil : StopsDigits [] := fun _ h => nomatch h

/-- The zeros in place of an exponent belong to the digits. -/
theorem decimal?_whole (n k : Nat) :
    decimal? (digitChars n ++ List.replicate k '0') = some ⟨n * 10 ^ k, 0⟩ := by
  have hdigits : ∀ c ∈ digitChars n ++ List.replicate k '0', c.isDigit :=
    List.forall_mem_append.2 ⟨isDigit_of_mem_digitChars, isDigit_of_mem_zeros⟩
  have hread := decimal?_digits hdigits (by simp [digitChars_ne_nil]) stopsDigits_nil (by simp) rfl
  rwa [List.append_nil, digitsValue_append_zeros] at hread

/-- The zeros behind the point count as digits of the fraction. -/
theorem decimal?_fraction (n k : Nat) :
    decimal? ('0' :: '.' :: (List.replicate k '0' ++ digitChars n)) =
      some ⟨n, -(k + (digitChars n).length : Nat)⟩ := by
  have hzero : ∀ c ∈ ['0'], c.isDigit := isDigit_of_mem_zeros (k := 1)
  have hfraction : ∀ c ∈ List.replicate k '0' ++ digitChars n, c.isDigit :=
    List.forall_mem_append.2 ⟨isDigit_of_mem_zeros, isDigit_of_mem_digitChars⟩
  have hread := decimal?_point hzero hfraction (List.cons_ne_nil '0' _) stopsDigits_nil rfl
  -- The digit in front of the point is one zero more.
  have hvalue : digitsValue (['0'] ++ (List.replicate k '0' ++ digitChars n)) = n :=
    digitsValue_zeros_append (k + 1) n
  rwa [List.append_nil, hvalue, List.length_append, List.length_replicate, Int.zero_sub] at hread

/-- Positional notation reads as a decimal of the same magnitude, if the exponent is not large. -/
theorem decimal?_positional (h : d.leading ≤ 310) :
    ∃ read, decimal? (positional d) = some read ∧ read.magnitude = d.magnitude := by
  have hlength := one_le_length d
  have hleading : d.leading = d.exponent + d.length - 1 := rfl
  rw [positional]
  split_ifs with hwhole hpointed
  · obtain ⟨k, hk⟩ := Int.eq_ofNat_of_zero_le hwhole
    refine ⟨⟨d.digits * 10 ^ k, 0⟩, ?_, ?_⟩
    · rw [hk, Int.toNat_natCast]
      exact decimal?_whole d.digits k
    · rw [magnitude_mul_pow d.digits (by omega), ← hk]
  · have hread := decimal?_pointAfter isDigit_of_mem_digitChars (digitChars_ne_nil d.digits)
      stopsDigits_nil (by simp) rfl (d.leading.toNat + 1)
    rw [List.append_nil, digitsValue_digitChars, length_digitChars] at hread
    refine ⟨_, hread, congrArg Decimal.magnitude ?_⟩
    have hexponent : (0 : Int) - (d.length - (d.leading.toNat + 1) : Nat) = d.exponent := by omega
    rw [hexponent]
  · refine ⟨_, decimal?_fraction d.digits _, congrArg Decimal.magnitude ?_⟩
    have hexponent : -(((-d.leading - 1).toNat + d.length : Nat) : Int) = d.exponent := by omega
    rw [length_digitChars, hexponent]

/-- A mantissa and an exponent read as the decimal itself. -/
theorem decimal?_scientific (l : Layout) : decimal? (scientific l d) = some d := by
  have hlength := one_le_length d
  have hstops : StopsDigits ('e' :: exponentChars l d.leading) := by
    intro c hc
    cases hc
    decide
  have hread := decimal?_pointAfter isDigit_of_mem_digitChars (digitChars_ne_nil d.digits) hstops
    (by simp) (exponent?_exponentChars l d.leading) 1
  have hexponent : d.leading - (d.length - 1 : Nat) = d.exponent := by
    rw [Decimal.leading]
    omega
  rw [scientific, hread, digitsValue_digitChars, length_digitChars, hexponent]

/-- The text of a decimal reads as a decimal of the same magnitude. -/
theorem decimal?_decimalChars :
    ∃ read, decimal? (decimalChars layout d) = some read ∧ read.magnitude = d.magnitude := by
  rw [decimalChars]
  split
  · rename_i h
    have hhighest : layout.highest = 5 := rfl
    exact decimal?_positional d (by omega)
  · exact ⟨d, decimal?_scientific d layout, rfl⟩

/-! ## Signs and words -/

theorem exists_decimalChars_eq_cons : ∃ c rest, decimalChars layout d = c :: rest ∧ c.isDigit := by
  obtain ⟨c, rest, hdigits⟩ := List.exists_cons_of_ne_nil (digitChars_ne_nil d.digits)
  have hc : c.isDigit := isDigit_of_mem_digitChars c (hdigits ▸ List.mem_cons_self)
  have hpoint (k : Nat) : ∃ tail, pointAfter (k + 1) (digitChars d.digits) = c :: tail := by
    rw [pointAfter, hdigits]
    split
    · exact ⟨rest, rfl⟩
    · exact ⟨_, rfl⟩
  rw [decimalChars]
  split
  · rw [positional]
    split_ifs
    · rw [hdigits]
      exact ⟨c, _, rfl, hc⟩
    · obtain ⟨tail, htail⟩ := hpoint d.leading.toNat
      exact ⟨c, tail, htail, hc⟩
    · exact ⟨'0', _, rfl, by decide⟩
  · obtain ⟨tail, htail⟩ := hpoint 0
    rw [scientific, htail]
    exact ⟨c, _, rfl, hc⟩

theorem toLower_of_isDigit {c : Char} (hc : c.isDigit) : c.toLower = c := by
  have hle : c.val ≤ 57 := by
    rw [Char.isDigit, Bool.and_eq_true, decide_eq_true_eq, decide_eq_true_eq] at hc
    exact hc.2
  rw [Char.toLower, dif_neg]
  rintro ⟨hge, -⟩
  exact absurd (UInt32.le_trans hge hle) (by decide)

/-- What does not begin with a sign has none. -/
theorem splitSign_cons {c : Char} (hminus : c ≠ '-') (hplus : c ≠ '+') (rest : List Char) :
    splitSign (c :: rest) = (false, c :: rest) := by
  rw [splitSign.eq_def]
  split
  · rename_i h
    exact (hminus (List.cons.inj h).1).elim
  · rename_i h
    exact (hplus (List.cons.inj h).1).elim
  · rfl

/-- What begins with a digit or a point has no sign and is no word. -/
theorem read?_cons {c : Char} (hc : c.isDigit ∨ c = '.') (rest : List Char) (negative : Bool) :
    read? (if negative then '-' :: c :: rest else c :: rest) =
      (decimal? (c :: rest)).map (.finite negative) := by
  have hne {e : Char} (he : e.isDigit = false) (hpoint : e ≠ '.') : c ≠ e := by
    rintro rfl
    rcases hc with hc | hc
    · rw [hc] at he
      cases he
    · exact hpoint hc
  have hsign : splitSign (if negative then '-' :: c :: rest else c :: rest) =
      (negative, c :: rest) := by
    cases negative with
    | true => rfl
    | false => exact splitSign_cons (hne (by decide) (by decide)) (hne (by decide) (by decide)) rest
  have hlower : c.toLower = c := by
    rcases hc with hc | rfl
    · exact toLower_of_isDigit hc
    · decide
  have hi : c ≠ 'i' := hne (by decide) (by decide)
  have hn : c ≠ 'n' := hne (by decide) (by decide)
  have hinfinity : ¬ (c :: rest).map Char.toLower ∈ infinityWords := by
    simp [infinityWords, hlower, hi]
  have hnan : ¬ (c :: rest).map Char.toLower = nanWord := by
    simp [nanWord, hlower, hn]
  simp only [read?, hsign, if_neg hinfinity, if_neg hnan]

end Numeral

/-! ## Numbers -/

namespace Number

/-- The text of a number reads back as the number. -/
theorem parse?_text (v : Float) : parse? (text v) = some v := by
  rw [parse?, text, String.toList_ofList]
  by_cases hnan : Magnitude.infinity < magnitude v
  · rw [eq_notANumber hnan]
    rfl
  by_cases hinfinite : magnitude v = Magnitude.infinity
  · have hread : Numeral.read? (if isNegative v then "-Inf" else "+Inf").toList =
        some (.infinite (isNegative v)) := by
      cases isNegative v <;> rfl
    simp only [chars, if_neg hnan, if_pos hinfinite, hread, Option.map_some, ofNumeral]
    rw [← hinfinite, ofMagnitude_magnitude]
  · have hfinite : magnitude v < Magnitude.infinity :=
      Nat.lt_of_le_of_ne (Nat.le_of_not_lt hnan) hinfinite
    obtain ⟨c, rest, hchars, hc⟩ :=
      Numeral.exists_decimalChars_eq_cons (Magnitude.shortest (magnitude v))
    obtain ⟨read, hread, hmagnitude⟩ :=
      Numeral.decimal?_decimalChars (Magnitude.shortest (magnitude v))
    rw [hchars] at hread
    simp only [chars, if_neg hnan, if_neg hinfinite, hchars, Numeral.read?_cons (.inl hc), hread,
      Option.map_some, ofNumeral, hmagnitude, Magnitude.magnitude_shortest hfinite,
      ofMagnitude_magnitude]

end Number

end DeckScript
