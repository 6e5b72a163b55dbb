import DeckScript.Proofs.NumberText

/-!
# Fewest digits

A larger decimal is read as a larger magnitude, or as the same one. So the decimals that are read as
a magnitude lie side by side, and the search for the shortest one misses none of them: on every
grid it looks at the two that are next to the magnitude, and the coarsest grid it begins with is
coarser than all that have one.

## Main definitions

* `Decimal.value` — the value of a decimal
* `Magnitude.IsShortest` — a decimal with the fewest digits that are read as a magnitude

## Main results

* `nearest_mono`, `Decimal.magnitude_mono` — reading keeps the order
* `exponent_le_shortest` — the shortest decimal lies on the coarsest grid that has one
* `isShortest_shortest` — the shortest decimal has the fewest digits
-/

namespace DeckScript

/-! ## Rounding keeps the order -/

theorem divHalfEven_mul_right (num den : ℕ) {k : ℕ} (hk : 0 < k) :
    divHalfEven (num * k) (den * k) = divHalfEven num den := by
  have hlt : den * k < 2 * (num % den * k) ↔ den < 2 * (num % den) := by
    rw [← Nat.mul_assoc, Nat.mul_lt_mul_right hk]
  have heq : den * k = 2 * (num % den * k) ↔ den = 2 * (num % den) := by
    rw [← Nat.mul_assoc, Nat.mul_left_inj hk.ne']
  simp only [divHalfEven, Nat.mul_div_mul_right _ _ hk, Nat.mul_mod_mul_right, hlt, heq]

theorem divHalfEven_mono {num num' : ℕ} (h : num ≤ num') (den : ℕ) :
    divHalfEven num den ≤ divHalfEven num' den := by
  have hquotient : num / den ≤ num' / den := Nat.div_le_div_right h
  have hnum := Nat.div_add_mod num den
  have hnum' := Nat.div_add_mod num' den
  unfold divHalfEven
  generalize num / den = q at *
  generalize num' / den = q' at *
  dsimp only
  rcases hquotient.lt_or_eq with hlt | rfl
  · split_ifs <;> omega
  · have hrest : num % den ≤ num' % den := by omega
    split_ifs <;> omega

namespace Magnitude

/-- The binary logarithm of the step between magnitudes of the size of `num / den` units. -/
def sizeShift (num den : ℕ) : ℕ := (num / den).log2 - fractionBits

/-- The bits of `num / den` units, without an upper bound. -/
def roundedBits (num den : ℕ) : ℕ :=
  sizeShift num den * fractions + divHalfEven num (den * 2 ^ sizeShift num den)

theorem nearest_eq (num den : ℕ) :
    nearest num den = min (roundedBits (num * unitsInOne) den) infinity := rfl

section Sizes

variable {num den : ℕ} (hden : 0 < den)
include hden

theorem divHalfEven_le_of_size :
    divHalfEven num (den * 2 ^ sizeShift num den) ≤ 2 * fractions := by
  have hstep : 0 < den * 2 ^ sizeShift num den := Nat.mul_pos hden (Nat.two_pow_pos _)
  have hlt : num / den < 2 ^ 53 * 2 ^ sizeShift num den := by
    rw [← Nat.pow_add]
    refine Nat.lt_log2_self.trans_le (Nat.pow_le_pow_right two_pos ?_)
    rw [sizeShift, fractionBits]
    omega
  rw [Nat.div_lt_iff_lt_mul hden] at hlt
  have hle : num ≤ 2 ^ 53 * (den * 2 ^ sizeShift num den) := by
    rw [Nat.mul_left_comm, Nat.mul_comm den]
    exact hlt.le
  exact (divHalfEven_mono hle _).trans (divHalfEven_mul_self _ hstep).le

theorem le_divHalfEven_of_size (hshift : sizeShift num den ≠ 0) :
    fractions ≤ divHalfEven num (den * 2 ^ sizeShift num den) := by
  have hstep : 0 < den * 2 ^ sizeShift num den := Nat.mul_pos hden (Nat.two_pow_pos _)
  have hlog : (num / den).log2 = 52 + sizeShift num den := by
    rw [sizeShift, fractionBits] at hshift ⊢
    omega
  have hne : num / den ≠ 0 := by
    intro hzero
    rw [hzero, Nat.log2_zero] at hlog
    omega
  have hle : 2 ^ 52 * 2 ^ sizeShift num den ≤ num / den := by
    rw [← Nat.pow_add, ← hlog]
    exact Nat.log2_self_le hne
  rw [Nat.le_div_iff_mul_le hden] at hle
  have hle' : 2 ^ 52 * (den * 2 ^ sizeShift num den) ≤ num := by
    rwa [Nat.mul_left_comm, Nat.mul_comm den]
  exact (divHalfEven_mul_self _ hstep).ge.trans (divHalfEven_mono hle' _)

theorem roundedBits_mono {num' : ℕ} (h : num ≤ num') :
    roundedBits num den ≤ roundedBits num' den := by
  have hshift : sizeShift num den ≤ sizeShift num' den :=
    by
    rw [sizeShift, sizeShift, Nat.log2_eq_log_two, Nat.log2_eq_log_two]
    exact Nat.sub_le_sub_right (Nat.log_mono_right (Nat.div_le_div_right h)) _
  rcases hshift.lt_or_eq with hlt | heq
  · -- Rounding up reaches the smallest magnitude of the next size at most.
    have hupper := @divHalfEven_le_of_size num den hden
    have hlower := @le_divHalfEven_of_size num' den hden
      (Nat.ne_of_gt (Nat.zero_lt_of_lt hlt))
    have hsteps := Nat.mul_le_mul_right fractions (Nat.succ_le_of_lt hlt)
    rw [Nat.succ_mul] at hsteps
    rw [roundedBits, roundedBits]
    omega
  · rw [roundedBits, roundedBits, heq]
    exact Nat.add_le_add_left (divHalfEven_mono h _) _

end Sizes

theorem roundedBits_mul_right (num den : ℕ) {k : ℕ} (hk : 0 < k) :
    roundedBits (num * k) (den * k) = roundedBits num den := by
  rw [roundedBits, roundedBits, sizeShift, sizeShift, Nat.mul_div_mul_right _ _ hk,
    Nat.mul_right_comm den, divHalfEven_mul_right _ _ hk]

/-- A larger fraction is read as a larger magnitude, or as the same one. -/
theorem nearest_mono {num den num' den' : ℕ} (hden : 0 < den) (hden' : 0 < den')
    (h : num * den' ≤ num' * den) : nearest num den ≤ nearest num' den' := by
  rw [nearest_eq, nearest_eq, ← roundedBits_mul_right (num * unitsInOne) den hden',
    ← roundedBits_mul_right (num' * unitsInOne) den' hden, Nat.mul_comm den' den,
    Nat.mul_right_comm num, Nat.mul_right_comm num']
  exact min_le_min_right _ (roundedBits_mono (Nat.mul_pos hden hden') (Nat.mul_le_mul_right _ h))

theorem nearest_zero (den : ℕ) : nearest 0 den = 0 := by
  rw [nearest_eq, roundedBits, sizeShift, Nat.zero_mul, Nat.zero_div]
  simp [divHalfEven, fractionBits]

/-- From `2 ^ 1024` on, fractions are read as infinity. -/
theorem nearest_of_two_pow_le {num den k : ℕ} (hden : 0 < den) (hk : 1024 ≤ k)
    (h : 2 ^ k * den ≤ num) : nearest num den = infinity := by
  obtain ⟨u, hu⟩ : ∃ u, unitExponent = u := ⟨_, rfl⟩
  have hunits : 2 ^ (k + u) ≤ num * unitsInOne / den := by
    rw [Nat.le_div_iff_mul_le hden, unitsInOne_eq hu, Nat.pow_add, Nat.mul_right_comm]
    exact Nat.mul_le_mul_right _ h
  have hlog : k + u ≤ (num * unitsInOne / den).log2 :=
    (Nat.le_log2 ((Nat.two_pow_pos _).trans_le hunits).ne').2 hunits
  have hshift : 2046 ≤ sizeShift (num * unitsInOne) den := by
    have hunit : u = 1074 := hu.symm
    rw [sizeShift, fractionBits]
    clear hunits
    omega
  have hsteps := le_divHalfEven_of_size hden (Nat.ne_of_gt (Nat.zero_lt_of_lt hshift))
  have hbits := Nat.mul_le_mul_right fractions hshift
  have hinfinity : infinity = 2046 * fractions + fractions := by decide
  refine Nat.min_eq_right ?_
  rw [hinfinity]
  exact Nat.add_le_add hbits hsteps

end Magnitude

/-! ## Reading keeps the order -/

namespace Decimal

open Magnitude

theorem digits_ne_zero {d : Decimal} (h : d.magnitude ≠ 0) : d.digits ≠ 0 := by
  intro hzero
  rw [magnitude, if_pos hzero] at h
  exact h rfl

theorem den_pos (d : Decimal) : 0 < d.den := Nat.pow_pos (by decide)

/-- A decimal with a larger exponent than any finite magnitude has is read as infinity anyway. -/
theorem nearest_of_large {d : Decimal} (hdigits : d.digits ≠ 0) (h : 310 < d.exponent) :
    nearest d.num d.den = infinity := by
  have hden : d.den = 1 := by
    have hexponent : (-d.exponent).toNat = 0 := by omega
    rw [den, hexponent]
  refine nearest_of_two_pow_le d.den_pos (le_refl 1024) ?_
  rw [hden, Nat.mul_one]
  calc 2 ^ 1024 ≤ 10 ^ 311 := by decide +kernel
    _ ≤ 10 ^ d.exponent.toNat := Nat.pow_le_pow_right (by decide) (by omega)
    _ ≤ d.num := Nat.le_mul_of_pos_left _ (Nat.pos_of_ne_zero hdigits)

/-- A tiny decimal is read as zero anyway. -/
theorem nearest_of_isTiny {d : Decimal} (h : d.isTiny) : nearest d.num d.den = 0 := by
  rw [isTiny, decide_eq_true_iff] at h
  obtain ⟨n, hn⟩ : ∃ n : ℕ, d.exponent = -(n + 330 : ℕ) := ⟨(-d.exponent - 330).toNat, by omega⟩
  have hlt : d.digits < 2 ^ (3 * n) :=
    Nat.lt_log2_self.trans_le (Nat.pow_le_pow_right two_pos (by omega))
  have hquarter : nearest 1 (4 * unitsInOne) = 0 := by decide +kernel
  refine Nat.le_zero.1 (hquarter ▸ nearest_mono d.den_pos (by decide +kernel) ?_)
  have hup : (-(-((n + 330 : ℕ) : ℤ))).toNat = n + 330 := by omega
  have hdown : (-((n + 330 : ℕ) : ℤ)).toNat = 0 := by omega
  rw [num, den, hn, hup, hdown, Nat.pow_eq, Nat.pow_eq, pow_zero, Nat.mul_one, Nat.one_mul]
  calc d.digits * (4 * unitsInOne) ≤ 2 ^ (3 * n) * 10 ^ 330 :=
        Nat.mul_le_mul hlt.le (by decide +kernel)
    _ ≤ 10 ^ n * 10 ^ 330 := by
        rw [Nat.pow_mul]
        exact Nat.mul_le_mul_right _ (Nat.pow_le_pow_left (by decide) n)
    _ = 10 ^ (n + 330) := by rw [Nat.pow_add]

/-- A decimal is read as the magnitude nearest to it. -/
theorem magnitude_eq_nearest (d : Decimal) : d.magnitude = nearest d.num d.den := by
  rw [magnitude]
  split_ifs with hzero hlarge htiny
  · rw [num, hzero, Nat.zero_mul, nearest_zero]
  · exact (nearest_of_large hzero hlarge).symm
  · exact (nearest_of_isTiny htiny).symm
  · rfl

/-- A larger decimal is read as a larger magnitude, or as the same one. -/
theorem magnitude_mono {d d' : Decimal} (h : d.num * d'.den ≤ d'.num * d.den) :
    d.magnitude ≤ d'.magnitude := by
  rw [magnitude_eq_nearest, magnitude_eq_nearest]
  exact nearest_mono d.den_pos d'.den_pos h

end Decimal

namespace Magnitude

open Decimal

/-! ## The neighbours on a grid -/

section Grid

variable {b n : ℕ} {e : ℤ}

theorem unitsInOne_pos : 0 < unitsInOne := by
  obtain ⟨u, hu⟩ : ∃ u, unitExponent = u := ⟨_, rfl⟩
  rw [unitsInOne_eq hu]
  exact Nat.two_pow_pos u

theorem num_mul_unitsInOne (n : ℕ) (e : ℤ) :
    (⟨n, e⟩ : Decimal).num * unitsInOne = n * gridDen e := by
  rw [Decimal.num, gridDen, Nat.mul_assoc, Nat.mul_comm unitsInOne]

theorem gridDen_pos (e : ℤ) : 0 < gridDen e :=
  Nat.mul_pos (unitsInOne_pos) (Nat.pow_pos (by decide))

theorem nearest_self (hb : b < infinity) : nearest (units b) unitsInOne = b :=
  nearest_of_exact hb (unitsInOne_pos) rfl

theorem magnitude_le (hb : b < infinity) (h : n * gridDen e ≤ gridNum b e) :
    (⟨n, e⟩ : Decimal).magnitude ≤ b := by
  rw [magnitude_eq_nearest, ← nearest_self hb]
  refine nearest_mono (den_pos _) (unitsInOne_pos) ?_
  rw [num_mul_unitsInOne]
  exact h

theorem le_magnitude (hb : b < infinity) (h : gridNum b e ≤ n * gridDen e) :
    b ≤ (⟨n, e⟩ : Decimal).magnitude := by
  rw [magnitude_eq_nearest]
  refine (nearest_self hb).ge.trans (nearest_mono (unitsInOne_pos) (den_pos _) ?_)
  rw [num_mul_unitsInOne]
  exact h

theorem magnitude_mono_digits {m : ℕ} (h : n ≤ m) :
    (⟨n, e⟩ : Decimal).magnitude ≤ (⟨m, e⟩ : Decimal).magnitude :=
  magnitude_mono (Nat.mul_le_mul_right _ (Nat.mul_le_mul_right _ h))

/-- If a point of a grid is read as a magnitude, a neighbour of the magnitude is. -/
theorem onGrid?_ne_none (hb : b < infinity) (h : (⟨n, e⟩ : Decimal).magnitude = b) :
    onGrid? b e ≠ none := by
  have hlow : gridNum b e / gridDen e * gridDen e ≤ gridNum b e := Nat.div_mul_le_self _ _
  have hhigh : gridNum b e ≤ (gridNum b e / gridDen e + 1) * gridDen e :=
    ((Nat.div_lt_iff_lt_mul (gridDen_pos e)).1 (Nat.lt_succ_self _)).le
  have hneighbour : (below b e).magnitude = b ∨ (above b e).magnitude = b := by
    rcases le_or_gt n (gridNum b e / gridDen e) with hle | hlt
    · exact .inl (le_antisymm (magnitude_le hb hlow) (h.ge.trans (magnitude_mono_digits hle)))
    · exact .inr (le_antisymm ((magnitude_mono_digits hlt).trans h.le) (le_magnitude hb hhigh))
  rw [onGrid?]
  rcases hneighbour with hbelow | habove
  · rw [decide_eq_true hbelow]
    split <;> simp_all
  · rw [decide_eq_true habove]
    split <;> simp_all

end Grid

/-! ## The coarsest grid -/

theorem units_mul_add {f : ℕ} (hf : f < fractions) (e : ℕ) :
    units (fractions * e + f) = if e = 0 then f else (f + fractions) * 2 ^ (e - 1) := by
  have hfractions : 0 < fractions := Nat.zero_lt_of_lt hf
  rw [units, Nat.mul_add_div hfractions, Nat.div_eq_of_lt hf, Nat.mul_add_mod, Nat.mod_eq_of_lt hf,
    Nat.add_zero]
  rfl

/-- The next magnitude is at most twice as large. -/
theorem units_succ_le {b : ℕ} (hb : b ≠ 0) : units (b + 1) ≤ 2 * units b := by
  have hlt : b % fractions < fractions := Nat.mod_lt b (by decide)
  have hfractions : 2 ≤ fractions := by decide
  have hsplit : fractions * (b / fractions) + b % fractions = b := Nat.div_add_mod b fractions
  generalize b / fractions = e at hsplit
  generalize b % fractions = f at hsplit hlt
  subst hsplit
  rw [units_mul_add hlt]
  have hpow : 0 < 2 ^ (e - 1) := Nat.two_pow_pos _
  rcases Nat.lt_or_ge (f + 1) fractions with hnext | hnext
  · rw [Nat.add_assoc, units_mul_add hnext]
    split_ifs with he
    · subst he
      omega
    · rw [← Nat.mul_assoc]
      exact Nat.mul_le_mul_right _ (by omega)
  · have hcarry : fractions * e + f + 1 = fractions * (e + 1) + 0 := by
      rw [Nat.mul_succ]
      omega
    rw [hcarry, units_mul_add (by omega), if_neg (Nat.succ_ne_zero e), Nat.add_sub_cancel,
      Nat.zero_add]
    split_ifs with he
    · subst he
      rw [pow_zero, Nat.mul_one]
      omega
    · obtain ⟨k, rfl⟩ := Nat.exists_eq_succ_of_ne_zero he
      rw [Nat.succ_eq_add_one, Nat.add_sub_cancel, Nat.pow_succ, ← Nat.mul_assoc, Nat.mul_comm _ 2,
        ← Nat.mul_assoc, ← Nat.mul_assoc]
      exact Nat.mul_le_mul_right _ (by omega)

/-- A fraction of at least twice the value is read as a larger magnitude. -/
theorem lt_nearest {b num den : ℕ} (hb : b ≠ 0) (hfinite : b < infinity) (hden : 0 < den)
    (h : 2 * units b * den ≤ num * unitsInOne) : b < nearest num den := by
  have hnext : nearest (units (b + 1)) unitsInOne = min (b + 1) infinity :=
    nearest_units unitsInOne_pos rfl
  calc b < min (b + 1) infinity := lt_min b.lt_succ_self hfinite
    _ = nearest (units (b + 1)) unitsInOne := hnext.symm
    _ ≤ nearest num den := nearest_mono unitsInOne_pos hden
      ((Nat.mul_le_mul_right den (units_succ_le hb)).trans h)

theorem two_pow_le_ten_pow {k j : ℕ} (h : 31 * k ≤ 100 * j) : 2 ^ k ≤ 10 ^ j := by
  rw [← Nat.pow_le_pow_iff_left (show 100 ≠ 0 by decide)]
  calc (2 ^ k) ^ 100 = (2 ^ 100) ^ k := Nat.pow_right_comm 2 k 100
    _ ≤ (10 ^ 31) ^ k := Nat.pow_le_pow_left (by decide) k
    _ = 10 ^ (31 * k) := (Nat.pow_mul 10 31 k).symm
    _ ≤ 10 ^ (100 * j) := Nat.pow_le_pow_right (by decide) h
    _ = (10 ^ j) ^ 100 := by rw [Nat.mul_comm, Nat.pow_mul]

theorem ten_pow_le_two_pow {k j : ℕ} (h : 10 * j ≤ 3 * k) : 10 ^ j ≤ 2 ^ k := by
  rw [← Nat.pow_le_pow_iff_left (show 10 ≠ 0 by decide)]
  calc (10 ^ j) ^ 10 = 10 ^ (10 * j) := by rw [Nat.mul_comm, Nat.pow_mul]
    _ ≤ 10 ^ (3 * k) := Nat.pow_le_pow_right (by decide) h
    _ = (10 ^ 3) ^ k := Nat.pow_mul 10 3 k
    _ ≤ (2 ^ 10) ^ k := Nat.pow_le_pow_left (by decide) k
    _ = (2 ^ k) ^ 10 := Nat.pow_right_comm 2 10 k

/-- The binary logarithm of four times a magnitude, from which the coarsest grid is computed. -/
theorem gridExponent_coarsestGrid (b : ℕ) {u : ℕ} (hu : unitExponent = u) {n : ℤ}
    (hn : ((units b).log2 : ℤ) + 2 - u = n) :
    (if 0 ≤ n then n * 31 / 100 + 1 else -(-n * 3 / 10)) ≤ gridExponent (coarsestGrid b) := by
  rw [gridExponent, coarsestGrid, hu, hn]
  omega

/-- Beyond the coarsest grid, a step is at least twice the magnitude. -/
theorem two_mul_units_le {b : ℕ} {d : Decimal} (hdigits : d.digits ≠ 0)
    (h : gridExponent (coarsestGrid b) < d.exponent) :
    2 * units b * d.den ≤ d.num * unitsInOne := by
  obtain ⟨u, hu⟩ : ∃ u, unitExponent = u := ⟨_, rfl⟩
  have hlog : 2 * units b ≤ 2 ^ ((units b).log2 + 2) := by
    have hlt : units b < 2 ^ ((units b).log2 + 1) := Nat.lt_log2_self
    rw [Nat.pow_succ, Nat.mul_comm]
    exact Nat.mul_le_mul_right 2 hlt.le
  have hgrid := gridExponent_coarsestGrid b hu rfl
  have hnum : 10 ^ d.exponent.toNat ≤ d.num := Nat.le_mul_of_pos_left _ (Nat.pos_of_ne_zero hdigits)
  generalize (units b).log2 = l at hlog hgrid
  rw [Decimal.den, Nat.pow_eq, unitsInOne_eq hu]
  rcases le_total (l + 2) u with hsmall | hlarge
  · -- Below one, three decimal places are at most ten binary ones.
    obtain ⟨p, rfl⟩ := Nat.exists_eq_add_of_le hsmall
    have hpow : 10 ^ (-d.exponent).toNat ≤ 2 ^ p := by
      refine ten_pow_le_two_pow ?_
      split_ifs at hgrid <;> omega
    calc 2 * units b * 10 ^ (-d.exponent).toNat ≤ 2 ^ (l + 2) * 2 ^ p := Nat.mul_le_mul hlog hpow
      _ = 1 * 2 ^ (l + 2 + p) := by rw [Nat.one_mul, Nat.pow_add 2 (l + 2) p]
      _ ≤ d.num * 2 ^ (l + 2 + p) :=
        Nat.mul_le_mul_right _ ((Nat.pow_pos (by decide)).trans_le hnum)
  · -- From one on, a hundred binary digits are at most 31 decimal ones.
    obtain ⟨k, hk⟩ := Nat.exists_eq_add_of_le hlarge
    rw [hk, Nat.pow_add] at hlog
    have hden : (-d.exponent).toNat = 0 := by
      split_ifs at hgrid <;> omega
    have hpow : 2 ^ k ≤ 10 ^ d.exponent.toNat := by
      refine two_pow_le_ten_pow ?_
      split_ifs at hgrid <;> omega
    calc 2 * units b * 10 ^ (-d.exponent).toNat ≤ 2 ^ u * 2 ^ k := by
          rwa [hden, pow_zero, Nat.mul_one]
      _ = 2 ^ k * 2 ^ u := Nat.mul_comm _ _
      _ ≤ d.num * 2 ^ u := Nat.mul_le_mul_right _ (hpow.trans hnum)

/-- Decimals beyond the coarsest grid are read as other magnitudes. -/
theorem exponent_le_coarsestGrid {b : ℕ} (hb : b ≠ 0) (hfinite : b < infinity) {d : Decimal}
    (h : d.magnitude = b) : d.exponent ≤ gridExponent (coarsestGrid b) := by
  by_contra hlt
  have hlarger := lt_nearest hb hfinite d.den_pos
    (two_mul_units_le (digits_ne_zero (h.trans_ne hb)) (not_le.1 hlt))
  rw [← magnitude_eq_nearest, h] at hlarger
  exact lt_irrefl b hlarger

/-! ## The search -/

theorem exponent_of_onGrid? {b : ℕ} {e : ℤ} {d : Decimal} (h : onGrid? b e = some d) :
    d.exponent = e := by
  have hneighbours : d = above b e ∨ d = below b e := by
    rw [onGrid?] at h
    generalize decide ((below b e).magnitude = b) = readsBelow at h
    generalize decide ((above b e).magnitude = b) = readsAbove at h
    cases readsBelow <;> cases readsAbove <;> simp only [Option.some.injEq, reduceCtorEq] at h
    · exact .inl h.symm
    · exact .inr h.symm
    · split at h
      · exact .inl h.symm
      · exact .inr h.symm
  rcases hneighbours with rfl | rfl
  · rw [above]
  · rw [below]

/-- The search finds the coarsest grid. -/
theorem exponent_le_search {b : ℕ} (hfinite : b < infinity) {d : Decimal} (h : d.magnitude = b)
    (k : ℕ) (hk : d.exponent ≤ gridExponent k) : d.exponent ≤ (search b k).exponent := by
  induction k with
  | zero => exact hk
  | succ k ih =>
    rw [search]
    split
    · rename_i found hfound
      rwa [exponent_of_onGrid? hfound]
    · rename_i hnone
      have hne : d.exponent ≠ gridExponent (k + 1) := by
        intro heq
        have hsome := onGrid?_ne_none (n := d.digits) (e := d.exponent) hfinite h
        rw [heq] at hsome
        exact hsome hnone
      refine ih ?_
      rw [gridExponent] at hk hne ⊢
      push_cast at hk hne
      omega

/-- The shortest decimal lies on the coarsest grid that has one. -/
theorem exponent_le_shortest {b : ℕ} (hb : b ≠ 0) (hfinite : b < infinity) {d : Decimal}
    (h : d.magnitude = b) : d.exponent ≤ (shortest b).exponent := by
  rw [shortest, if_neg hb]
  exact exponent_le_search hfinite h _ (exponent_le_coarsestGrid hb hfinite h)

end Magnitude

/-! ## Values and digits -/

namespace Decimal

open Numeral (one_le_length)

variable {d d' : Decimal}

/-- The value of a decimal. -/
def value (d : Decimal) : ℚ := d.digits * 10 ^ d.exponent

theorem value_eq (d : Decimal) : d.value = d.num / d.den := by
  obtain ⟨digits, exponent⟩ := d
  rw [value, num, den, Nat.pow_eq, Nat.pow_eq]
  dsimp only
  obtain ⟨k, rfl | rfl⟩ := Int.eq_nat_or_neg exponent
  · simp
  · simp [div_eq_mul_inv]

theorem magnitude_mono_value (h : d.value ≤ d'.value) : d.magnitude ≤ d'.magnitude := by
  have hden : (0 : ℚ) < d.den := by exact_mod_cast d.den_pos
  have hden' : (0 : ℚ) < d'.den := by exact_mod_cast d'.den_pos
  rw [value_eq, value_eq, div_le_div_iff₀ hden hden'] at h
  exact magnitude_mono (by exact_mod_cast h)

theorem digits_lt (d : Decimal) : d.digits < 10 ^ d.length :=
  (Nat.length_toDigits_le_iff (by decide) (one_le_length d)).1 le_rfl

theorem le_digits (h : d.digits ≠ 0) : 10 ^ (d.length - 1) ≤ d.digits := by
  rcases Nat.eq_zero_or_pos (d.length - 1) with hone | hmore
  · rw [hone]
    exact Nat.pos_of_ne_zero h
  · by_contra hlt
    have hle := (Nat.length_toDigits_le_iff (by decide) hmore).2 (not_le.1 hlt)
    have hpos := one_le_length d
    rw [← length] at hle
    omega

/-- A decimal lies between the powers of ten of its first digit. -/
theorem value_lt (d : Decimal) : d.value < 10 ^ (d.leading + 1) := by
  have hlt : (d.digits : ℚ) < 10 ^ d.length := by exact_mod_cast d.digits_lt
  have hsum : d.leading + 1 = d.length + d.exponent := by
    rw [leading]
    ring
  rw [value, hsum, zpow_add₀ (by norm_num), zpow_natCast]
  gcongr

theorem le_value (h : d.digits ≠ 0) : 10 ^ d.leading ≤ d.value := by
  have hle : (10 : ℚ) ^ (d.length - 1) ≤ d.digits := by exact_mod_cast le_digits h
  have hpos := one_le_length d
  have hsum : d.leading = (d.length - 1 : ℕ) + d.exponent := by
    rw [leading]
    omega
  rw [value, hsum, zpow_add₀ (by norm_num), zpow_natCast]
  gcongr

end Decimal

namespace Magnitude

open Decimal
open Numeral (one_le_length)

/-- No decimal with fewer digits than the shortest one is read as a magnitude. -/
theorem length_shortest_le {b : ℕ} (hfinite : b < infinity) {d : Decimal} (h : d.magnitude = b) :
    (shortest b).length ≤ d.length := by
  by_cases hb : b = 0
  · rw [hb]
    exact one_le_length d
  have hread := magnitude_shortest hfinite
  by_contra hlonger
  have hexponent := exponent_le_shortest hb hfinite h
  -- A power of ten lies between the two, and it has one digit only.
  have hleading : d.leading + 1 ≤ (shortest b).leading := by
    rw [leading, leading]
    omega
  obtain ⟨p, hp⟩ : ∃ p : Decimal, p = ⟨1, (shortest b).leading⟩ := ⟨_, rfl⟩
  have hvalue : p.value = 10 ^ (shortest b).leading := by
    rw [hp, value, Nat.cast_one, one_mul]
  have hlow : d.value ≤ p.value := by
    rw [hvalue]
    exact d.value_lt.le.trans (zpow_le_zpow_right₀ (by norm_num) hleading)
  have hhigh : p.value ≤ (shortest b).value :=
    hvalue.le.trans (le_value (digits_ne_zero (hread.trans_ne hb)))
  have hpower : p.magnitude = b :=
    le_antisymm ((magnitude_mono_value hhigh).trans hread.le)
      (h.ge.trans (magnitude_mono_value hlow))
  have hcoarse := exponent_le_shortest hb hfinite hpower
  have hpos := one_le_length d
  rw [hp, leading] at hcoarse
  dsimp only at hcoarse
  omega

/-- The decimal is read as the magnitude, and no decimal with fewer digits is. -/
structure IsShortest (d : Decimal) (b : ℕ) : Prop where
  magnitude_eq : d.magnitude = b
  length_le : ∀ d' : Decimal, d'.magnitude = b → d.length ≤ d'.length

theorem isShortest_shortest {b : ℕ} (hfinite : b < infinity) : IsShortest (shortest b) b :=
  ⟨magnitude_shortest hfinite, fun _ => length_shortest_le hfinite⟩

end Magnitude

end DeckScript
