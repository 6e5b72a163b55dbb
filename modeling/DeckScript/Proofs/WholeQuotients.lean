import DeckScript.Loop
import DeckScript.Proofs.WholeNumbers

/-!
# Quotients of whole numbers

A quotient of whole numbers is rounded, but never up to the next whole number: a quotient just below
a whole number is at least one part in its divisor below it, and the dividend is too small for this
to be rounded away. So the whole part of the rounded quotient is the quotient without its remainder.

## Main definitions

* `Number.Extends` — a mantissa and the two digits behind it are those of a fraction
* `Number.IsRounded` — a whole number is at most half a unit away from a fraction

## Main results

* `Extends.isRounded` — rounding stays within half a unit
* `wholePart_div` — the whole part of the quotient of two whole numbers
-/

namespace DeckScript.Number

open Float.Model
open Float.Model.UnpackedFloat (Sign ExtendedMantissa)

/-! ## Rounding a fraction -/

/-- The mantissa is the whole part of the fraction. The first digit behind it says whether at least
a half was cut off, and the second one whether anything was cut off other than a half. -/
structure Extends (em : ExtendedMantissa) (num den : ℕ) : Prop where
  mantissa : em.mantissa = num / den
  roundBit : em.roundBit = true ↔ den ≤ 2 * (num % den)
  stickyBit : em.stickyBit = true ↔ num % den ≠ 0 ∧ 2 * (num % den) ≠ den

/-- A whole number that is at most half a unit away from a fraction. -/
structure IsRounded (r num den : ℕ) : Prop where
  le : 2 * (r * den) ≤ 2 * num + den
  ge : 2 * num ≤ 2 * (r * den) + den

section Fraction

variable {num den : ℕ}

theorem IsRounded.of_mul_right {r w : ℕ} (h : IsRounded r (num * w) (den * w)) (hw : 0 < w) :
    IsRounded r num den := by
  obtain ⟨hle, hge⟩ := h
  refine ⟨Nat.le_of_mul_le_mul_right ?_ hw, Nat.le_of_mul_le_mul_right ?_ hw⟩
  · linarith only [hle]
  · linarith only [hge]

theorem extends_ofMantissaAndAccuracy (num : ℕ) (hden : 0 < den) :
    Extends (.ofMantissaAndAccuracy (num / den)
      (UnpackedFloat.accuracyOfFraction (num % den) den)) num den := by
  rw [UnpackedFloat.accuracyOfFraction]
  split_ifs with hexact
  · exact ⟨rfl, by simp [ExtendedMantissa.ofMantissaAndAccuracy]; omega,
      by simp [ExtendedMantissa.ofMantissaAndAccuracy, hexact]⟩
  · rcases lt_trichotomy (2 * (num % den)) den with h | h | h
    · rw [compare_lt_iff_lt.2 h]
      exact ⟨rfl, by simp [ExtendedMantissa.ofMantissaAndAccuracy, h],
        by simp [ExtendedMantissa.ofMantissaAndAccuracy]; omega⟩
    · rw [compare_eq_iff_eq.2 h]
      exact ⟨rfl, by simp [ExtendedMantissa.ofMantissaAndAccuracy, h.ge],
        by simp [ExtendedMantissa.ofMantissaAndAccuracy, h]⟩
    · rw [compare_gt_iff_gt.2 h]
      exact ⟨rfl, by simp [ExtendedMantissa.ofMantissaAndAccuracy, h.le],
        by simp [ExtendedMantissa.ofMantissaAndAccuracy]; omega⟩

namespace Extends

variable {em : ExtendedMantissa} (h : Extends em num den) (hden : 0 < den)
include h hden

theorem shiftRightOne : Extends em.shiftRightOne num (den * 2) := by
  obtain ⟨hmantissa, hround, hsticky⟩ := h
  have hmod : num % (den * 2) = num % den + den * (num / den % 2) := Nat.mod_mul
  have hlt : num % den < den := Nat.mod_lt num hden
  have hdigit : num / den % 2 = 0 ∨ num / den % 2 = 1 := Nat.mod_two_eq_zero_or_one _
  refine ⟨?_, ?_, ?_⟩
  · rw [ExtendedMantissa.shiftRightOne, hmantissa, Nat.div_div_eq_div_mul]
  · rw [ExtendedMantissa.shiftRightOne, hmantissa, bne_iff_ne, hmod]
    rcases hdigit with hdigit | hdigit <;> rw [hdigit] <;> omega
  · rw [ExtendedMantissa.shiftRightOne, Bool.or_eq_true, hround, hsticky, hmod]
    rcases hdigit with hdigit | hdigit <;> rw [hdigit] <;> omega

theorem shiftRight (c : ℕ) : Extends (em >>> c) num (den * 2 ^ c) := by
  change Extends (Nat.repeat ExtendedMantissa.shiftRightOne c em) num (den * 2 ^ c)
  induction c with
  | zero => simpa [Nat.repeat] using h
  | succ c ih =>
    rw [Nat.pow_succ, ← Nat.mul_assoc]
    exact ih.shiftRightOne (Nat.mul_pos hden (Nat.two_pow_pos c))

/-- The mantissa is rounded by half a unit at most. -/
theorem isRounded : IsRounded em.roundedMantissa num den := by
  obtain ⟨mantissa, roundBit, stickyBit⟩ := em
  obtain ⟨rfl, hround, hsticky⟩ := h
  dsimp only at hround hsticky
  have hnum : num / den * den + num % den = num := Nat.div_add_mod' num den
  have hlt : num % den < den := Nat.mod_lt num hden
  have hsucc : (num / den + 1) * den = num / den * den + den := Nat.succ_mul _ _
  rw [ExtendedMantissa.roundedMantissa]
  cases roundBit <;> cases stickyBit <;>
    simp only [ExtendedMantissa.accuracy, UnpackedFloat.Accuracy.roundToNearestEven] <;>
    simp only [true_iff, false_iff, Bool.false_eq_true] at hround hsticky
  · exact ⟨by omega, by omega⟩
  · exact ⟨by omega, by omega⟩
  · rcases Nat.mod_two_eq_zero_or_one (num / den) with heven | hodd
    · rw [heven, Nat.add_zero]
      exact ⟨by omega, by omega⟩
    · rw [hodd]
      exact ⟨by omega, by omega⟩
  · exact ⟨by omega, by omega⟩

end Extends

end Fraction

/-! ## Rounding a quotient -/

/-- A quotient of at least `2 ^ 52` that is rounded within half a unit keeps its whole part, in
units of any smaller size. -/
theorem div_eq_of_rounded {a b r i : ℕ} (hb : 0 < b) (ha : a < 2 ^ 53)
    (hdigits : 2 ^ 52 * b ≤ a * 2 ^ i) (h : IsRounded r (a * 2 ^ i) b) :
    r / 2 ^ i = a / b := by
  obtain ⟨hle, hge⟩ := h
  have hlow : a / b * b ≤ a := Nat.div_mul_le_self a b
  have hhigh : a + 1 ≤ (a / b + 1) * b := (Nat.div_lt_iff_lt_mul hb).1 (Nat.lt_succ_self _)
  generalize a / b = f at hlow hhigh
  refine Nat.div_eq_of_lt_le ?_ ?_
  · by_contra hlt
    have hsucc : (r + 1) * b ≤ f * 2 ^ i * b := Nat.mul_le_mul_right b (not_le.1 hlt)
    have hvalue : f * 2 ^ i * b ≤ a * 2 ^ i := by
      rw [Nat.mul_right_comm]
      exact Nat.mul_le_mul_right _ hlow
    rw [Nat.succ_mul] at hsucc
    omega
  · by_contra hlt
    have hnext : (f + 1) * 2 ^ i * b ≤ r * b := Nat.mul_le_mul_right b (not_lt.1 hlt)
    have hvalue : (a + 1) * 2 ^ i ≤ (f + 1) * 2 ^ i * b := by
      rw [Nat.mul_right_comm]
      exact Nat.mul_le_mul_right _ hhigh
    rw [Nat.succ_mul] at hvalue
    -- Half a unit would span a part in the divisor, which takes a dividend of 54 digits.
    have hpart : 2 * 2 ^ i ≤ b := by omega
    have hlarge : 2 ^ 53 * 2 ^ i ≤ a * 2 ^ i := by omega
    exact ha.not_ge (Nat.le_of_mul_le_mul_right hlarge (Nat.two_pow_pos i))

/-- The rounded mantissa fills the 53 digits, or goes one unit beyond them. -/
theorem shiftToTargetExponent_rounded {r : ℕ} (hlow : 2 ^ 52 ≤ r) (hhigh : r ≤ 2 ^ 53) {e : ℤ}
    (he : -1074 ≤ e) :
    ∃ m s : ℕ, UnpackedFloat.shiftToTargetExponent Format.binary64 r e .exact =
      (⟨m, false, false⟩, e + s) ∧ m * 2 ^ s = r ∧ 2 ^ 52 ≤ m ∧ m < 2 ^ 53 ∧ s ≤ 1 := by
  obtain ⟨s, m, hs, rfl, hmlow, hmhigh⟩ :
      ∃ s m : ℕ, s ≤ 1 ∧ r = m * 2 ^ s ∧ 2 ^ 52 ≤ m ∧ m < 2 ^ 53 := by
    rcases hhigh.lt_or_eq with h | rfl
    · exact ⟨0, r, by omega, by omega, hlow, h⟩
    · exact ⟨1, 2 ^ 52, le_rfl, by norm_num, le_rfl, by norm_num⟩
  have hlog : m.log2 = 52 := (Nat.log2_eq_iff (by omega)).2 ⟨hmlow, hmhigh⟩
  have htarget : Format.binary64.targetExponent (totalExponent (m * 2 ^ s) e) = e + s := by
    rw [totalExponent, log2_mul_two_pow (by omega), hlog]
    change max (((52 + s : ℕ) : ℤ) + 1 + e - 53) (-1074) = _
    omega
  have hshift : (e + (s : ℤ) - e).toNat = s := by omega
  refine ⟨m, s, ?_, rfl, hmlow, hmhigh, hs⟩
  rw [UnpackedFloat.shiftToTargetExponent, htarget, UnpackedFloat.shiftToExponent, hshift,
    ExtendedMantissa.ofMantissaAndAccuracy, shiftRight_exact]

theorem bounds_of_log2 {num den c : ℕ} (hden : 0 < den) (hlog : (num / den).log2 = 52 + c) :
    2 ^ 52 * (den * 2 ^ c) ≤ num ∧ num < 2 ^ 53 * (den * 2 ^ c) := by
  have hne : num / den ≠ 0 := by
    intro hzero
    rw [hzero, Nat.log2_zero] at hlog
    omega
  rw [Nat.log2_eq_iff hne, Nat.le_div_iff_mul_le hden, Nat.div_lt_iff_lt_mul hden] at hlog
  have hswap (k : ℕ) : 2 ^ k * (den * 2 ^ c) = 2 ^ (k + c) * den := by ring
  rw [hswap, hswap]
  exact ⟨hlog.1, by rw [Nat.add_right_comm] at hlog; exact hlog.2⟩

/-- A fraction whose whole part has `53 + c` digits is rounded to 53 of them. -/
theorem roundWithAccuracy_fraction (sign : Sign) {num den c : ℕ} {e : ℤ} (hden : 0 < den)
    (hlog : (num / den).log2 = 52 + c) (he : -1074 ≤ e + c) :
    ∃ (m s : ℕ) (hm : 0 < m), UnpackedFloat.roundWithAccuracy Format.binary64 sign (num / den) e
        (UnpackedFloat.accuracyOfFraction (num % den) den) = .finite sign m (e + c + s) hm ∧
      2 ^ 52 ≤ m ∧ m < 2 ^ 53 ∧ s ≤ 1 ∧ IsRounded (m * 2 ^ s) num (den * 2 ^ c) := by
  have htarget : Format.binary64.targetExponent (totalExponent (num / den) e) = e + c := by
    rw [totalExponent, hlog]
    change max (((52 + c : ℕ) : ℤ) + 1 + e - 53) (-1074) = _
    omega
  have hshift : (e + (c : ℤ) - e).toNat = c := by omega
  have hextends := (extends_ofMantissaAndAccuracy num hden).shiftRight hden c
  have hunit : 0 < den * 2 ^ c := Nat.mul_pos hden (Nat.two_pow_pos c)
  have hrounded := hextends.isRounded hunit
  rw [UnpackedFloat.roundWithAccuracy, UnpackedFloat.shiftToTargetExponent, htarget,
    UnpackedFloat.shiftToExponent, hshift]
  dsimp only
  generalize ExtendedMantissa.roundedMantissa _ = r at hrounded ⊢
  obtain ⟨hfewest, hmost⟩ := bounds_of_log2 hden hlog
  have hlow : 2 * 2 ^ 52 ≤ 2 * r + 1 := by
    refine Nat.le_of_mul_le_mul_right ?_ hunit
    linarith only [hfewest, hrounded.ge]
  have hhigh : 2 * r < 2 * 2 ^ 53 + 1 := by
    refine Nat.lt_of_mul_lt_mul_right (a := den * 2 ^ c) ?_
    linarith only [hmost, hrounded.le]
  obtain ⟨m, s, hexact, rfl, hmlow, hmhigh, hs⟩ :=
    @shiftToTargetExponent_rounded r (by omega) (by omega) _ he
  have hm : 0 < m := by omega
  refine ⟨m, s, hm, ?_, hmlow, hmhigh, hs, hrounded⟩
  rw [hexact]
  exact dif_neg hm.ne'

/-! ## Whole parts -/

theorem mantissa_shiftRight (em : ExtendedMantissa) (j : ℕ) :
    (em >>> j).mantissa = em.mantissa / 2 ^ j := by
  change (Nat.repeat ExtendedMantissa.shiftRightOne j em).mantissa = _
  induction j with
  | zero => simp [Nat.repeat]
  | succ j ih =>
    rw [Nat.repeat, ExtendedMantissa.shiftRightOne, Nat.pow_succ, ← Nat.div_div_eq_div_mul, ← ih]

/-- The whole part of a number is its mantissa, shifted by its exponent. -/
theorem roundToInt_eq (sign : Sign) (m k j : ℕ) :
    UnpackedFloat.roundToInt sign m ((k : ℤ) - j) = sign.apply (m * 2 ^ k / 2 ^ j : ℕ) := by
  simp only [UnpackedFloat.roundToInt, UnpackedFloat.decreaseExponent,
    UnpackedFloat.shiftToExponent]
  rw [mantissa_shiftRight, ExtendedMantissa.ofMantissaAndAccuracy, Nat.shiftLeft_eq]
  rcases Nat.le_total j k with h | h
  · obtain ⟨i, rfl⟩ := Nat.exists_eq_add_of_le h
    have hup : ((j + i : ℕ) - (j : ℤ) - 0).toNat = i := by omega
    have hdown : (0 - ((j + i : ℕ) - (j : ℤ) - (i : ℤ))).toNat = 0 := by omega
    rw [hup, hdown, Nat.pow_add, Nat.mul_left_comm, Nat.mul_div_cancel_left _ (Nat.two_pow_pos j),
      pow_zero, Nat.div_one]
  · obtain ⟨i, rfl⟩ := Nat.exists_eq_add_of_le h
    have hup : ((k : ℤ) - (k + i : ℕ) - 0).toNat = 0 := by omega
    have hdown : (0 - ((k : ℤ) - (k + i : ℕ) - (0 : ℕ))).toNat = i := by omega
    rw [hup, hdown, pow_zero, Nat.mul_one, Nat.pow_add, Nat.mul_comm m,
      Nat.mul_div_mul_left _ _ (Nat.two_pow_pos k)]

section Quotient

variable {m n : ℕ} (hm : 0 < m) (hmlt : m < 2 ^ 53) (hn : 0 < n) (hnlt : n < 2 ^ 53)
include hm hmlt hn hnlt

/-- The quotient is taken with 53 more digits. -/
theorem divCore_whole :
    UnpackedFloat.divCore Format.binary64 (m * 2 ^ places m) (-places m) (n * 2 ^ places n)
        (-places n) =
      (m * 2 ^ (places m + 53) / (n * 2 ^ places n), -((places m + 53 : ℕ) - places n : ℤ),
        UnpackedFloat.accuracyOfFraction (m * 2 ^ (places m + 53) % (n * 2 ^ places n))
          (n * 2 ^ places n)) := by
  have htotal {k : ℕ} (hk : 0 < k) (hklt : k < 2 ^ 53) :
      totalExponent (k * 2 ^ places k) (-places k) = 53 - places k := by
    rw [totalExponent, (isNormal_whole hk hklt).log2_eq]
    omega
  have htarget : Format.binary64.targetExponent (53 - places m - (53 - places n)) =
      -((places m + 53 : ℕ) - places n : ℤ) := by
    have hplaces : places m ≤ 52 := Nat.sub_le _ _
    change max ((53 - places m - (53 - places n) : ℤ) - 53) (-1074) = _
    omega
  have hmin : min (-(places m : ℤ) - -places n) (-((places m + 53 : ℕ) - places n : ℤ)) =
      -((places m + 53 : ℕ) - places n : ℤ) := by omega
  have hshift : (-(places m : ℤ) - -places n - -((places m + 53 : ℕ) - places n : ℤ)).toNat =
      53 := by omega
  simp only [UnpackedFloat.divCore, htotal hm hmlt, htotal hn hnlt, htarget, hmin, hshift]
  rw [Nat.shiftLeft_eq, Nat.mul_assoc, ← Nat.pow_add]

theorem log2_quotient : ∃ c ≤ 1, (m * 2 ^ (places m + 53) / (n * 2 ^ places n)).log2 = 52 + c := by
  have hmnormal := isNormal_whole hm hmlt
  have hnnormal := isNormal_whole hn hnlt
  -- Both mantissas have 53 digits, so their quotient lies between a half and two.
  rw [Nat.pow_add, ← Nat.mul_assoc]
  generalize m * 2 ^ places m = a at hmnormal ⊢
  generalize n * 2 ^ places n = b at hnnormal ⊢
  obtain ⟨halow, hahigh, -, -⟩ := hmnormal
  obtain ⟨hblow, hbhigh, -, -⟩ := hnnormal
  have hb : 0 < b := by omega
  have hlow : 2 ^ 52 ≤ a * 2 ^ 53 / b := (Nat.le_div_iff_mul_le hb).2 (by omega)
  have hhigh : a * 2 ^ 53 / b < 2 ^ 54 := (Nat.div_lt_iff_lt_mul hb).2 (by omega)
  have hne : a * 2 ^ 53 / b ≠ 0 := by omega
  rcases Nat.lt_or_ge (a * 2 ^ 53 / b) (2 ^ 53) with h | h
  · exact ⟨0, by omega, (Nat.log2_eq_iff hne).2 ⟨hlow, h⟩⟩
  · exact ⟨1, le_rfl, (Nat.log2_eq_iff hne).2 ⟨h, hhigh⟩⟩

/-- The quotient of whole numbers, rounded to 53 digits, has the whole part of the quotient. -/
theorem div_whole (hmpos : 0 < m * 2 ^ places m) (hnpos : 0 < n * 2 ^ places n) :
    ∃ (k s i : ℕ) (hk : 0 < k), UnpackedFloat.div Format.binary64
        (.finite .positive (m * 2 ^ places m) (-places m) hmpos)
        (.finite .positive (n * 2 ^ places n) (-places n) hnpos) =
          .finite .positive k ((s : ℤ) - i) hk ∧
      IsNormal k ((s : ℤ) - i) ∧ k * 2 ^ s / 2 ^ i = m / n := by
  obtain ⟨c, hc, hlog⟩ := log2_quotient hm hmlt hn hnlt
  have hmplaces : places m ≤ 52 := Nat.sub_le _ _
  have hnplaces : places n ≤ 52 := Nat.sub_le _ _
  obtain ⟨i, hi⟩ : ∃ i, places m + 53 = i + (places n + c) :=
    ⟨places m + 53 - (places n + c), by omega⟩
  obtain ⟨k, s, hk, hround, hklow, hkhigh, hs, hrounded⟩ :=
    @roundWithAccuracy_fraction (.positive / .positive) _ _ c
      (-((places m + 53 : ℕ) - places n : ℤ)) hnpos hlog (by omega)
  have hexponent : -((places m + 53 : ℕ) - places n : ℤ) + c + s = (s : ℤ) - i := by omega
  have hnum : m * 2 ^ (places m + 53) = m * 2 ^ i * 2 ^ (places n + c) := by
    rw [hi, Nat.pow_add, Nat.mul_assoc]
  have hden : n * 2 ^ places n * 2 ^ c = n * 2 ^ (places n + c) := by
    rw [Nat.pow_add, Nat.mul_assoc]
  have hfewest := (bounds_of_log2 hnpos hlog).1
  rw [hnum, hden, ← Nat.mul_assoc] at hfewest
  rw [hnum, hden] at hrounded
  have hunit : 0 < 2 ^ (places n + c) := Nat.two_pow_pos _
  refine ⟨k, s, i, hk, ?_, ⟨hklow, hkhigh, by omega, by omega⟩, ?_⟩
  · unfold UnpackedFloat.div
    dsimp only
    rw [divCore_whole hm hmlt hn hnlt]
    dsimp only
    rw [hround, hexponent]
    rfl
  · exact div_eq_of_rounded hn hmlt (Nat.le_of_mul_le_mul_right hfewest hunit)
      (hrounded.of_mul_right hunit)

end Quotient

theorem IsWhole.eq_of_natCast {u : UnpackedFloat} {a : ℕ} (hu : IsWhole u a) :
    (a = 0 ∧ ∃ s, u = .zero s) ∨ 0 < a ∧ a < 2 ^ 53 ∧
      ∃ hpos, u = .finite .positive (a * 2 ^ places a) (-places a) hpos := by
  generalize hz : (a : ℤ) = z at hu
  cases hu with
  | zero s => exact .inl ⟨by omega, s, rfl⟩
  | @finite s n hn hlt hpos =>
    cases s
    · rw [Sign.apply] at hz
      omega
    · obtain rfl : a = n := by
        rw [Sign.apply] at hz
        exact_mod_cast hz
      exact .inr ⟨hn, hlt, hpos, rfl⟩

theorem toUInt64_pack_finite {k s i : ℕ} (hk : 0 < k) (hnormal : IsNormal k ((s : ℤ) - i))
    (hlt : k * 2 ^ s / 2 ^ i < 2 ^ 53) :
    (Float.Model.pack (.finite .positive k ((s : ℤ) - i) hk)).toUInt64.toNat =
      k * 2 ^ s / 2 ^ i := by
  unfold Float.Model.toUInt64
  rw [unpack_pack_finite _ hk hnormal]
  unfold UnpackedFloat.toUInt64 UnpackedFloat.toInt
  dsimp only
  rw [roundToInt_eq, Sign.apply, Int.toNat_natCast, UInt64.ofNatClamp,
    dif_pos (hlt.trans (by decide)), UInt64.toNat_ofNatLT]

/-- The whole part of the quotient of two whole numbers is the quotient without its remainder. -/
theorem wholePart_div {x y : Float} {a b : ℕ} (hx : IsWhole x.toModel.unpack a)
    (hy : IsWhole y.toModel.unpack b) (hb : 0 < b) : Loop.wholePart (x / y) = a / b := by
  change (Float.Model.pack (UnpackedFloat.div Format.binary64 x.toModel.unpack
    y.toModel.unpack)).toUInt64.toNat = a / b
  obtain ⟨rfl, -⟩ | ⟨-, hblt, hbpos, hv⟩ := hy.eq_of_natCast
  · exact absurd hb (lt_irrefl 0)
  rw [hv]
  obtain ⟨rfl, s, hu⟩ | ⟨ha, halt, hapos, hu⟩ := hx.eq_of_natCast
  · rw [hu, Nat.zero_div]
    unfold UnpackedFloat.div Float.Model.toUInt64
    dsimp only
    rw [unpack_pack_zero]
    rfl
  · obtain ⟨k, s, i, hk, hdiv, hnormal, hquotient⟩ := div_whole ha halt hb hblt hapos hbpos
    rw [hu, hdiv, toUInt64_pack_finite hk hnormal, hquotient]
    rw [hquotient]
    exact (Nat.div_le_self a b).trans_lt halt

end DeckScript.Number
