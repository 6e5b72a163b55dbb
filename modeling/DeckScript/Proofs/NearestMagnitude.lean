import DeckScript.Decimal.Shortest
import Mathlib.Tactic.Ring

/-!
# Decimals that read back as a magnitude

A fraction that is a magnitude's own value is read as that magnitude. On the finest grid every
magnitude has its own value for a neighbour, so the search for the shortest decimal ends with one
that reads back.

## Main results

* `Magnitude.nearest_of_exact` — a fraction that is a magnitude's value is read as that magnitude
* `Magnitude.magnitude_shortest` — the shortest decimal of a magnitude reads back as it
-/

namespace DeckScript

theorem divHalfEven_mul_self (q : Nat) {den : Nat} (hden : 0 < den) :
    divHalfEven (q * den) den = q := by
  rw [divHalfEven, Nat.mul_div_cancel q hden, Nat.mul_mod_left, if_neg]
  omega

namespace Magnitude

/-! ## The value of a magnitude -/

/-- The binary logarithm of the step between magnitudes of the size of `b`, in units. -/
def shift (b : Nat) : Nat := (units b).log2 - fractionBits

/-- The bits of a magnitude count steps of its size, after the bits of all smaller sizes. -/
theorem exists_units_eq (b : Nat) :
    ∃ steps, units b = steps * 2 ^ shift b ∧ shift b * fractions + steps = b := by
  have hfractions : 0 < fractions := by decide
  rcases Nat.lt_or_ge b fractions with hsmall | hlarge
  · -- The smallest sizes have steps of one unit.
    have hunits : units b = b := by
      rw [units, Nat.div_eq_of_lt hsmall, Nat.mod_eq_of_lt hsmall]
      rfl
    have hshift : shift b = 0 := by
      rw [shift, hunits, fractionBits, Nat.sub_eq_zero_iff_le]
      rcases Nat.eq_zero_or_pos b with rfl | hpos
      · decide
      · exact Nat.le_of_lt ((Nat.log2_lt (Nat.ne_of_gt hpos)).2 hsmall)
    exact ⟨b, by rw [hunits, hshift, Nat.pow_zero, Nat.mul_one], by rw [hshift]; omega⟩
  · obtain ⟨n, hn⟩ : ∃ n, b / fractions = n + 1 :=
      Nat.exists_eq_add_one.2 (Nat.div_pos hlarge hfractions)
    have hunits : units b = (b % fractions + fractions) * 2 ^ n := by
      rw [units, hn]
      rfl
    have hmod := Nat.mod_lt b hfractions
    have hshift : shift b = n := by
      have hpos : 0 < units b := by
        rw [hunits]
        exact Nat.mul_pos (by omega) (Nat.two_pow_pos n)
      have hlog : (units b).log2 = fractionBits + n := by
        rw [Nat.log2_eq_iff (Nat.ne_of_gt hpos), hunits, Nat.add_right_comm, Nat.pow_add,
          Nat.pow_add, Nat.pow_succ]
        change fractions * 2 ^ n ≤ _ ∧ _ < fractions * 2 * 2 ^ n
        exact ⟨Nat.mul_le_mul_right _ (by omega),
          Nat.mul_lt_mul_of_pos_right (by omega) (Nat.two_pow_pos n)⟩
      rw [shift, hlog, Nat.add_sub_cancel_left]
    refine ⟨b % fractions + fractions, by rw [hunits, hshift], ?_⟩
    have hdivmod := Nat.div_add_mod b fractions
    rw [hn, Nat.mul_succ, Nat.mul_comm] at hdivmod
    rw [hshift]
    omega

/-- A fraction that has the value of some bits is read as them, if they are finite. -/
theorem nearest_units {b num den : Nat} (hden : 0 < den) (h : num * unitsInOne = units b * den) :
    nearest num den = min b infinity := by
  obtain ⟨steps, hunits, hsteps⟩ := exists_units_eq b
  have hquotient : units b * den / den = units b := Nat.mul_div_cancel _ hden
  have hstep : 0 < den * Nat.pow 2 (shift b) := Nat.mul_pos hden (Nat.two_pow_pos _)
  have hnum : units b * den = steps * (den * Nat.pow 2 (shift b)) := by
    change units b * den = steps * (den * 2 ^ shift b)
    rw [hunits]
    ring
  have hdivided : divHalfEven (units b * den) (den * Nat.pow 2 (shift b)) = steps := by
    rw [hnum, divHalfEven_mul_self steps hstep]
  have hnearest : nearest num den = min (shift b * fractions +
      divHalfEven (units b * den) (den * Nat.pow 2 (shift b))) infinity := by
    simp only [nearest, h, hquotient, shift]
  rw [hnearest, hdivided, hsteps]

/-- A fraction that is the value of a magnitude is read as that magnitude. -/
theorem nearest_of_exact {b num den : Nat} (hb : b < infinity) (hden : 0 < den)
    (h : num * unitsInOne = units b * den) : nearest num den = b :=
  (nearest_units hden h).trans (Nat.min_eq_left hb.le)

/-! ## The finest grid -/

theorem units_ne_zero {b : Nat} (hb : b ≠ 0) : units b ≠ 0 := by
  obtain ⟨steps, hunits, hsteps⟩ := exists_units_eq b
  intro hzero
  rw [hzero] at hunits
  have hshift : shift b = 0 := by rw [shift, hzero]; rfl
  rcases Nat.mul_eq_zero.1 hunits.symm with h | h
  · rw [hshift, h] at hsteps
    omega
  · exact absurd h (Nat.ne_of_gt (Nat.two_pow_pos _))

theorem two_pow_le_five_pow (n : Nat) : 2 ^ (9 * n) ≤ 5 ^ (4 * n) := by
  rw [Nat.pow_mul, Nat.pow_mul]
  exact Nat.pow_le_pow_left (by decide) n

/-- The value of a magnitude as a decimal on the grid of step `10 ^ (-u)`. -/
def exactDecimal (b u : Nat) : Decimal := ⟨units b * 5 ^ u, -(u : Int)⟩

section Finest

variable {u : Nat} (hu : unitExponent = u)
include hu

theorem unitsInOne_eq : unitsInOne = 2 ^ u := by
  unfold unitsInOne
  generalize unitExponent = n at *
  rw [hu, Nat.pow_eq]

/-- The point of the finest grid from below has the value of the magnitude. -/
theorem below_finest (b : Nat) : below b (gridExponent 0) = exactDecimal b u := by
  have hexponent : gridExponent 0 = -(u : Int) := by
    rw [gridExponent, hu]
    omega
  have hup : (-(-(u : Int))).toNat = u := by omega
  have hdown : (-(u : Int)).toNat = 0 := by omega
  have hnum : gridNum b (-(u : Int)) = units b * 5 ^ u * 2 ^ u := by
    rw [gridNum, hup, Nat.pow_eq, Nat.mul_assoc, ← Nat.mul_pow]
  have hden : gridDen (-(u : Int)) = 2 ^ u := by
    rw [gridDen, hdown, unitsInOne_eq hu, Nat.pow_eq, Nat.pow_zero, Nat.mul_one]
  rw [below, hexponent, hnum, hden, Nat.mul_div_cancel _ (Nat.two_pow_pos u), exactDecimal]

theorem isTiny_exactDecimal {b : Nat} (hb : b ≠ 0) : (exactDecimal b u).isTiny = false := by
  have hunits : 0 < units b := Nat.pos_of_ne_zero (units_ne_zero hb)
  have hdigits : units b * 5 ^ u ≠ 0 := Nat.ne_of_gt (Nat.mul_pos hunits (Nat.pow_pos (by decide)))
  have hlog : 9 * (u / 4) ≤ (units b * 5 ^ u).log2 := by
    -- Four factors of five make more than nine binary digits.
    refine (Nat.le_log2 hdigits).2 ?_
    calc 2 ^ (9 * (u / 4)) ≤ 5 ^ (4 * (u / 4)) := two_pow_le_five_pow _
      _ ≤ 5 ^ u := Nat.pow_le_pow_right (by decide) (Nat.mul_div_le _ 4)
      _ ≤ units b * 5 ^ u := Nat.le_mul_of_pos_left _ hunits
  have hunit : u = 1074 := hu.symm
  rw [Decimal.isTiny, exactDecimal, decide_eq_false_iff_not]
  dsimp only
  generalize (units b * 5 ^ u).log2 = n at *
  omega

theorem magnitude_exactDecimal {b : Nat} (hb : b ≠ 0) (hfinite : b < infinity) :
    (exactDecimal b u).magnitude = b := by
  have hup : (-(-(u : Int))).toNat = u := by omega
  have hdown : (-(u : Int)).toNat = 0 := by omega
  have hdigits : (exactDecimal b u).digits ≠ 0 :=
    Nat.mul_ne_zero (units_ne_zero hb) (Nat.ne_of_gt (Nat.pow_pos (by decide)))
  have hlarge : ¬ 310 < (exactDecimal b u).exponent := by
    change ¬ 310 < -(u : Int)
    omega
  have hnum : (exactDecimal b u).num = units b * 5 ^ u := by
    rw [Decimal.num, exactDecimal, hdown, Nat.pow_eq, Nat.pow_zero, Nat.mul_one]
  have hden : (exactDecimal b u).den = 10 ^ u := by
    rw [Decimal.den, exactDecimal, hup, Nat.pow_eq]
  rw [Decimal.magnitude, if_neg hdigits, if_neg hlarge, isTiny_exactDecimal hu hb,
    if_neg Bool.false_ne_true, hnum, hden]
  apply nearest_of_exact hfinite (Nat.pow_pos (by decide))
  rw [unitsInOne_eq hu, Nat.mul_assoc, ← Nat.mul_pow]

end Finest

/-! ## The shortest decimal -/

theorem magnitude_search {b : Nat} (hb : b ≠ 0) (hfinite : b < infinity) (k : Nat) :
    (search b k).magnitude = b := by
  induction k with
  | zero =>
    rw [search, below_finest rfl]
    exact magnitude_exactDecimal rfl hb hfinite
  | succ k ih =>
    rw [search]
    split
    · rename_i d hd
      exact magnitude_of_onGrid? hd
    · exact ih

/-- The shortest decimal of a magnitude reads back as it. -/
theorem magnitude_shortest {b : Nat} (hfinite : b < infinity) : (shortest b).magnitude = b := by
  rw [shortest]
  split
  · rename_i hb
    rw [hb]
    rfl
  · rename_i hb
    exact magnitude_search hb hfinite (coarsestGrid b)

end Magnitude

end DeckScript
