import DeckScript.Proofs.FewestDigits
import DeckScript.Proofs.LongestLexemes
import DeckScript.Proofs.TokenText

/-!
# The notation of numbers

The text of a finite number is positional if its decimal exponent lies between -4 and 5, and has a
mantissa and an exponent else. Either way the text is one number token, apart from its sign.

## Main definitions

* `Number.IsPositional`, `Number.IsScientific` — texts in positional and in exponent notation
* `Number.decimalExponent` — the exponent of a number's first digit
* `Number.IsCanonical` — what the text of a number is like

## Main results

* `isPositional_text_iff` — which numbers are written positionally
* `isScientific_text` — the other finite numbers are written with an exponent
* `lexemes_text` — the text of a finite number without a sign is one number token
* `text_canonical` — the text of a number is one of a kind and reads back
-/

namespace DeckScript.Number

open Float.Model Lexeme Numeral

/-! ## Notations -/

/-- Nothing, or a minus sign. -/
def IsMinus (s : List Char) : Prop := s = [] ∨ s = ['-']

/-- Nothing, or a point with digits behind it. -/
def IsFraction (s : List Char) : Prop := s = [] ∨ ∃ ds, s = '.' :: ds ∧ IsDigits ds

/-- Digits, possibly with a point and more digits. -/
def IsPlaces (s : List Char) : Prop := ∃ ds fs, s = ds ++ fs ∧ IsDigits ds ∧ IsFraction fs

/-- A digit other than zero, possibly with a point and more digits, and behind the mark the sign
and at least two digits of the exponent `e`. -/
def IsScaled (e : ℤ) (s : List Char) : Prop :=
  ∃ c fs es, s = c :: (fs ++ 'e' :: (if e < 0 then '-' else '+') :: es) ∧
    c.isDigit ∧ c ≠ '0' ∧ IsFraction fs ∧ IsDigits es ∧ 2 ≤ es.length ∧ digitsValue es = e.natAbs

/-- A text in positional notation. -/
def IsPositional (s : List Char) : Prop :=
  ∃ sign body, s = sign ++ body ∧ IsMinus sign ∧ IsPlaces body

/-- A text in exponent notation. -/
def IsScientific (e : ℤ) (s : List Char) : Prop :=
  ∃ sign body, s = sign ++ body ∧ IsMinus sign ∧ IsScaled e body

/-- The exponent of the first of a number's fewest digits. -/
def decimalExponent (v : Float) : ℤ := (Magnitude.shortest (magnitude v)).leading

/-- Positional notation has no other characters than digits, a point and a minus sign. -/
theorem IsPositional.forall_mem {s : List Char} (h : IsPositional s) :
    ∀ c ∈ s, c = '-' ∨ c.isDigit ∨ c = '.' := by
  obtain ⟨sign, _, rfl, hsign, ds, fs, rfl, hds, hfs⟩ := h
  intro c hc
  rcases List.mem_append.1 hc with hc | hc
  · rcases hsign with rfl | rfl
    · cases hc
    · exact .inl (List.mem_singleton.1 hc)
  · rcases List.mem_append.1 hc with hc | hc
    · exact .inr (.inl (hds.2 c hc))
    · rcases hfs with rfl | ⟨fs, rfl, hfs⟩
      · cases hc
      · rcases List.mem_cons.1 hc with rfl | hc
        · exact .inr (.inr rfl)
        · exact .inr (.inl (hfs.2 c hc))

theorem IsScientific.mark_mem {e : ℤ} {s : List Char} (h : IsScientific e s) : 'e' ∈ s := by
  obtain ⟨sign, _, rfl, -, c, fs, es, rfl, -⟩ := h
  simp

theorem IsScientific.not_isPositional {e : ℤ} {s : List Char} (h : IsScientific e s) :
    ¬ IsPositional s :=
  fun hpositional => absurd (hpositional.forall_mem 'e' h.mark_mem) (by decide)

/-! ## Decimals in their notations -/

variable (d : Decimal)

theorem isDigits_digitChars (n : ℕ) : IsDigits (digitChars n) :=
  ⟨digitChars_ne_nil n, isDigit_of_mem_digitChars⟩

/-- Digits with a point among them. -/
theorem pointAfter_eq {c : Char} {ds : List Char} (hds : ∀ e ∈ ds, e.isDigit) (k : ℕ) :
    ∃ fs, pointAfter (k + 1) (c :: ds) = c :: (ds.take k ++ fs) ∧ IsFraction fs := by
  rw [pointAfter]
  split_ifs with htail
  · rw [List.isEmpty_iff, List.drop_succ_cons, List.drop_eq_nil_iff] at htail
    exact ⟨[], by rw [List.take_of_length_le htail, List.append_nil], .inl rfl⟩
  · refine ⟨'.' :: ds.drop k, rfl, .inr ⟨_, rfl, ?_, fun e he => hds e (List.mem_of_mem_drop he)⟩⟩
    rwa [List.isEmpty_iff, List.drop_succ_cons] at htail

theorem isPlaces_positional : IsPlaces (positional d) := by
  have hdigits := isDigits_digitChars d.digits
  rw [positional]
  split_ifs with hwhole hpointed
  · exact ⟨_, [], (List.append_nil _).symm, ⟨by simp [digitChars_ne_nil],
      List.forall_mem_append.2 ⟨hdigits.2, isDigit_of_mem_zeros⟩⟩, .inl rfl⟩
  · obtain ⟨c, ds, hcons⟩ := List.exists_cons_of_ne_nil hdigits.1
    rw [hcons] at hdigits ⊢
    obtain ⟨hc, hds⟩ := List.forall_mem_cons.1 hdigits.2
    obtain ⟨fs, hpoint, hfs⟩ := pointAfter_eq (c := c) hds d.leading.toNat
    exact ⟨_, fs, hpoint, ⟨List.cons_ne_nil _ _, List.forall_mem_cons.2
      ⟨hc, fun e he => hds e (List.mem_of_mem_take he)⟩⟩, hfs⟩
  · refine ⟨['0'], _, rfl, ⟨List.cons_ne_nil _ _, isDigit_of_mem_zeros (k := 1)⟩,
      .inr ⟨_, rfl, by simp [digitChars_ne_nil],
        List.forall_mem_append.2 ⟨isDigit_of_mem_zeros, hdigits.2⟩⟩⟩

/-- The digits of a number other than zero do not begin with a zero. -/
theorem exists_digitChars_eq_cons {n : ℕ} (hn : n ≠ 0) :
    ∃ c ds, digitChars n = c :: ds ∧ c ≠ '0' := by
  induction n using Nat.strongRecOn with
  | ind n ih =>
    rw [digitChars]
    rcases Nat.lt_or_ge n 10 with hlt | hge
    · exact ⟨_, [], Nat.toDigits_of_lt_base hlt, mt Nat.digitChar_eq_zero.1 hn⟩
    · obtain ⟨c, ds, hcons, hc⟩ := ih (n / 10) (by omega) (by omega)
      exact ⟨c, ds ++ [(n % 10).digitChar],
        by rw [Nat.toDigits_of_base_le (by decide) hge, ← digitChars, hcons, List.cons_append], hc⟩

theorem exponentChars_eq (e : ℤ) : ∃ es,
    exponentChars layout e = (if e < 0 then '-' else '+') :: es ∧ IsDigits es ∧ 2 ≤ es.length ∧
      digitsValue es = e.natAbs := by
  refine ⟨_, rfl, ⟨by simp [digitChars_ne_nil], List.forall_mem_append.2
    ⟨isDigit_of_mem_zeros, isDigit_of_mem_digitChars⟩⟩, ?_, digitsValue_zeros_append _ _⟩
  rw [List.length_append, List.length_replicate]
  change 2 ≤ 2 - _ + _
  omega

theorem isScaled_scientific (hd : d.digits ≠ 0) : IsScaled d.leading (scientific layout d) := by
  obtain ⟨c, ds, hcons, hc⟩ := exists_digitChars_eq_cons hd
  have hdigits := (isDigits_digitChars d.digits).2
  rw [hcons] at hdigits
  obtain ⟨hdigit, hds⟩ := List.forall_mem_cons.1 hdigits
  obtain ⟨fs, hpoint, hfs⟩ := pointAfter_eq (c := c) hds 0
  obtain ⟨es, hexponent, hes⟩ := exponentChars_eq d.leading
  refine ⟨c, fs, es, ?_, hdigit, hc, hfs, hes⟩
  rw [scientific, hcons, hpoint, hexponent]
  rfl

/-! ## Finite numbers -/

theorem isFinite_iff (v : Float) : v.isFinite ↔ magnitude v < Magnitude.infinity := by
  obtain ⟨⟨bits, hvalid⟩⟩ := v
  change (UnpackedFloat.unpack Format.binary64 bits.toBitVec).isFinite = true ↔
    bits.toNat % 0x8000000000000000 < 0x7FF0000000000000
  have hexponent : @UnpackedFloat.unpackExponent Format.binary64 bits.toBitVec = -1#11 ↔
      bits.toNat / 2 ^ 52 % 2 ^ 11 = 2047 := by
    rw [← BitVec.toNat_inj, UnpackedFloat.unpackExponent_def, BitVec.extractLsb'_toNat,
      Nat.shiftRight_eq_div_pow]
    rfl
  have hlt := bits.toNat_lt
  rw [UnpackedFloat.unpack]
  dsimp only
  split_ifs with hones <;> rw [hexponent] at hones <;>
    simp only [UnpackedFloat.isFinite, true_iff, false_iff, Bool.false_eq_true] <;> omega

/-- The exponents of positional notation. -/
def IsPositionalExponent (e : ℤ) : Prop := -4 ≤ e ∧ e ≤ 5

theorem decimalChars_positional (h : IsPositionalExponent d.leading) :
    decimalChars layout d = positional d := if_pos h

theorem decimalChars_scientific (h : ¬ IsPositionalExponent d.leading) :
    decimalChars layout d = scientific layout d := if_neg h

section Finite

variable {v : Float} (hv : v.isFinite)
include hv

theorem chars_of_isFinite : chars v = (if isNegative v then ['-'] else []) ++
    decimalChars layout (Magnitude.shortest (magnitude v)) := by
  have hlt := (isFinite_iff v).1 hv
  rw [chars]
  dsimp only
  rw [if_neg hlt.not_gt, if_neg hlt.ne]
  cases isNegative v <;> rfl

/-- Only zero is written without any digit but zeros, and its exponent is zero. -/
theorem digits_shortest_ne (h : ¬ IsPositionalExponent (decimalExponent v)) :
    (Magnitude.shortest (magnitude v)).digits ≠ 0 := by
  refine Decimal.digits_ne_zero fun hzero => h ?_
  rw [Magnitude.magnitude_shortest ((isFinite_iff v).1 hv)] at hzero
  rw [decimalExponent, hzero]
  exact ⟨by decide, by decide⟩

/-- A finite number is written positionally if its exponent is one of positional notation. -/
theorem isPositional_text (h : IsPositionalExponent (decimalExponent v)) :
    IsPositional (text v).toList := by
  rw [text, String.toList_ofList, chars_of_isFinite hv, decimalChars_positional _ h]
  exact ⟨_, _, rfl, by cases isNegative v <;> simp [IsMinus], isPlaces_positional _⟩

/-- Else it is written with an exponent. -/
theorem isScientific_text (h : ¬ IsPositionalExponent (decimalExponent v)) :
    IsScientific (decimalExponent v) (text v).toList := by
  rw [text, String.toList_ofList, chars_of_isFinite hv, decimalChars_scientific _ h]
  exact ⟨_, _, rfl, by cases isNegative v <;> simp [IsMinus],
    isScaled_scientific _ (digits_shortest_ne hv h)⟩

end Finite

/-- The other numbers are written as words. -/
theorem text_of_not_isFinite {v : Float} (hv : v.isFinite = false) :
    text v = "NaN" ∨ text v = "+Inf" ∨ text v = "-Inf" := by
  have hle : Magnitude.infinity ≤ magnitude v := by
    by_contra hlt
    rw [(isFinite_iff v).2 (not_le.1 hlt)] at hv
    cases hv
  rw [text, chars]
  dsimp only
  rcases hle.lt_or_eq with hnan | hinfinite
  · rw [if_pos hnan]
    exact .inl rfl
  · rw [if_neg hinfinite.not_lt, if_pos hinfinite.symm]
    cases isNegative v
    · exact .inr (.inl rfl)
    · exact .inr (.inr rfl)

/-- The numbers that are written positionally are the finite ones with such an exponent. -/
theorem isPositional_text_iff (v : Float) :
    IsPositional (text v).toList ↔ v.isFinite ∧ IsPositionalExponent (decimalExponent v) := by
  refine ⟨fun h => ?_, fun h => isPositional_text h.1 h.2⟩
  have hfinite : v.isFinite := by
    by_contra hv
    -- Each of the words has an `N` or an `n`.
    have hletter : 'N' ∈ (text v).toList ∨ 'n' ∈ (text v).toList := by
      rcases text_of_not_isFinite (Bool.eq_false_iff.2 hv) with hword | hword | hword <;>
        rw [hword] <;> decide
    rcases hletter with hletter | hletter
    · exact absurd (h.forall_mem _ hletter) (by decide)
    · exact absurd (h.forall_mem _ hletter) (by decide)
  exact ⟨hfinite, by_contra fun hnot => (isScientific_text hfinite hnot).not_isPositional h⟩

/-! ## Number tokens -/

theorem IsPlaces.isMantissa {s : List Char} (h : IsPlaces s) : IsMantissa s := by
  obtain ⟨ds, fs, rfl, hds, rfl | ⟨fs, rfl, hfs⟩⟩ := h
  · rw [List.append_nil]
    exact .whole hds
  · exact .fraction hds hfs.2

theorem IsPlaces.isNumber {s : List Char} (h : IsPlaces s) : IsNumber s := by
  have hnumber := IsNumber.decimal h.isMantissa .none
  rwa [List.append_nil] at hnumber

theorem IsScaled.isNumber {e : ℤ} {s : List Char} (h : IsScaled e s) : IsNumber s := by
  obtain ⟨c, fs, es, rfl, hc, -, hfs, hes, -⟩ := h
  have hmantissa : IsPlaces (c :: fs) :=
    ⟨[c], fs, rfl, ⟨List.cons_ne_nil _ _, by simpa using hc⟩, hfs⟩
  have hsign : isSign (if e < 0 then '-' else '+') := by
    split <;> decide
  exact .decimal hmantissa.isMantissa (.signed (by decide) hsign hes)

theorem lexemes_of_isNumber {s : List Char} (h : IsNumber s) : lexemes s = [⟨.number, s⟩] := by
  obtain ⟨c, word, rfl⟩ := List.exists_cons_of_ne_nil h.ne_nil
  have hlongest : IsLongest IsNumber (c :: word) [] :=
    ⟨h, fun p _ hp => by simpa using hp.length_le⟩
  have hextent := isLongest_isNumber_iff.1 hlongest
  rw [List.append_nil] at hextent
  rw [lexemes, hextent]
  dsimp only
  rw [List.take_length, List.drop_length, lexemes]

/-- The text of a finite number without a sign is one number token. -/
theorem lexemes_text {v : Float} (hv : v.isFinite) (hsign : isNegative v = false) :
    lexemes (text v).toList = [⟨.number, (text v).toList⟩] := by
  have hchars := chars_of_isFinite hv
  rw [hsign, if_neg Bool.false_ne_true, List.nil_append] at hchars
  rw [text, String.toList_ofList, hchars]
  by_cases h : IsPositionalExponent (decimalExponent v)
  · rw [decimalChars_positional _ h]
    exact lexemes_of_isNumber (isPlaces_positional _).isNumber
  · rw [decimalChars_scientific _ h]
    exact lexemes_of_isNumber (isScaled_scientific _ (digits_shortest_ne hv h)).isNumber

theorem tokenize_text {v : Float} (hv : v.isFinite) (hsign : isNegative v = false) :
    tokenize (text v) = [text v] := by
  rw [tokenize, lexemes_text hv hsign]
  simp [Kind.isGap]

/-! ## Canonical texts -/

/-- What the text of a number is like. -/
structure IsCanonical (v : Float) : Prop where
  reads_back : parse? (text v) = some v
  fewest_digits : v.isFinite → Magnitude.IsShortest (Magnitude.shortest (magnitude v)) (magnitude v)
  positional_iff : IsPositional (text v).toList ↔
    v.isFinite ∧ -4 ≤ decimalExponent v ∧ decimalExponent v ≤ 5
  scientific : v.isFinite → ¬ (-4 ≤ decimalExponent v ∧ decimalExponent v ≤ 5) →
    IsScientific (decimalExponent v) (text v).toList
  word : v.isFinite = false → text v = "NaN" ∨ text v = "+Inf" ∨ text v = "-Inf"
  text_of_parse? : ∀ u, parse? (text v) = some u → text u = text v
  eq_of_text_eq : ∀ u, text u = text v → u = v
  one_token : v.isFinite → isNegative v = false →
    lexemes (text v).toList = [⟨.number, (text v).toList⟩] ∧ tokenize (text v) = [text v]

/-- The text of a number reads back as it. It has the fewest digits, in positional notation where
the decimal exponent lies between -4 and 5 and in exponent notation else, and is one number token
apart from its sign. -/
theorem text_canonical (v : Float) : IsCanonical v where
  reads_back := parse?_text v
  fewest_digits := fun hv => Magnitude.isShortest_shortest ((isFinite_iff v).1 hv)
  positional_iff := isPositional_text_iff v
  scientific := isScientific_text
  word := text_of_not_isFinite
  text_of_parse? := fun u hu => by
    rw [parse?_text, Option.some.injEq] at hu
    rw [hu]
  eq_of_text_eq := fun u hu => by
    have hread := congrArg parse? hu
    rwa [parse?_text, parse?_text, Option.some.injEq] at hread
  one_token := fun hv hsign => ⟨lexemes_text hv hsign, tokenize_text hv hsign⟩

/-- Infinity is not finite, but it is not written with an exponent either. -/
theorem infinity_without_exponent :
    (ofMagnitude false Magnitude.infinity).isFinite = false ∧
      ∀ e, ¬ IsScientific e (text (ofMagnitude false Magnitude.infinity)).toList := by
  have htext : text (ofMagnitude false Magnitude.infinity) = "+Inf" := by decide +kernel
  refine ⟨by decide +kernel, fun e h => ?_⟩
  have hmark := h.mark_mem
  rw [htext] at hmark
  exact absurd hmark (by decide)

end DeckScript.Number
