import DeckScript.Proofs.PackedNumbers
import Mathlib.Algebra.Order.Field.Power
import Mathlib.Tactic.Linarith
import Mathlib.Tactic.Ring

/-!
# Whole numbers

A whole number of at most 53 binary digits is a floating-point number: its mantissa is the number,
shifted until it has 53 digits, and its exponent takes the shift back. Sums, differences and
products of such numbers are exact where they are such numbers themselves, and comparing them
compares the whole numbers.

## Main definitions

* `Number.IsWhole` — the unpacked forms of a whole number

## Main results

* `IsWhole.add`, `IsWhole.sub`, `IsWhole.mul` — sums, differences and products are exact
* `IsWhole.le_iff` — comparisons are exact
* `HasValue.isWhole` — a number with a whole value has one of its forms
* `IsWhole.unique` — which is one form only, apart from the sign of zero
-/

namespace DeckScript.Number

open Float.Model
open Float.Model.UnpackedFloat (Sign ExtendedMantissa)

/-! ## Signs -/

theorem natAbs_apply (s : Sign) (n : ℕ) : (s.apply n).natAbs = n := by
  cases s
  · exact (Int.natAbs_neg n).trans (Int.natAbs_natCast n)
  · exact Int.natAbs_natCast n

theorem neg_apply (s : Sign) (z : ℤ) : (-s).apply z = -s.apply z := by
  cases s
  · exact (neg_neg z).symm
  · rfl

theorem apply_mul_right (s : Sign) (z w : ℤ) : s.apply (z * w) = s.apply z * w := by
  cases s
  · exact (neg_mul z w).symm
  · rfl

theorem mul_apply (s t : Sign) (z w : ℤ) : (s * t).apply (z * w) = s.apply z * t.apply w := by
  cases s <;> cases t
  · exact (neg_mul_neg z w).symm
  · exact (neg_mul z w).symm
  · exact (mul_neg z w).symm
  · rfl

/-! ## The form of a whole number -/

/-- The places by which a whole number is shifted to fill up the mantissa. -/
def places (n : ℕ) : ℕ := 52 - n.log2

/-- The unpacked forms of a whole number: zero has two of them. -/
inductive IsWhole : UnpackedFloat → ℤ → Prop
  | zero (s : Sign) : IsWhole (.zero s) 0
  | finite (s : Sign) {n : ℕ} (hn : 0 < n) (hlt : n < 2 ^ 53) (hpos : 0 < n * 2 ^ places n) :
    IsWhole (.finite s (n * 2 ^ places n) (-places n) hpos) (s.apply n)

theorem log2_mul_two_pow {n : ℕ} (hn : 0 < n) (j : ℕ) : (n * 2 ^ j).log2 = n.log2 + j := by
  have hpos : 0 < 2 ^ j := Nat.two_pow_pos j
  rw [Nat.log2_eq_iff (Nat.mul_pos hn hpos).ne', Nat.add_right_comm, Nat.pow_add, Nat.pow_add]
  exact ⟨Nat.mul_le_mul_right _ (Nat.log2_self_le hn.ne'),
    Nat.mul_lt_mul_of_pos_right Nat.lt_log2_self hpos⟩

section Form

variable {n : ℕ} (hn : 0 < n) (hlt : n < 2 ^ 53)
include hn hlt

theorem log2_add_places : n.log2 + places n = 52 := by
  have hlog : n.log2 < 53 := (Nat.log2_lt hn.ne').2 hlt
  rw [places]
  omega

theorem isNormal_whole : IsNormal (n * 2 ^ places n) (-places n) := by
  have hlog := log2_mul_two_pow hn (places n)
  rw [log2_add_places hn hlt, Nat.log2_eq_iff (Nat.mul_pos hn (Nat.two_pow_pos _)).ne'] at hlog
  have hplaces : places n ≤ 52 := Nat.sub_le _ _
  exact ⟨hlog.1, hlog.2, by omega, by omega⟩

/-- Where the mantissa of a whole number ends does not depend on how it is shifted. -/
theorem targetExponent_whole (j : ℕ) :
    Format.binary64.targetExponent (totalExponent (n * 2 ^ j) (-j)) = -places n := by
  have hlog := log2_add_places hn hlt
  have htotal : totalExponent (n * 2 ^ j) (-j) = 53 - places n := by
    rw [totalExponent, log2_mul_two_pow hn]
    omega
  rw [htotal]
  change max ((53 - places n : ℤ) - 53) (-1074) = _
  omega

end Form

/-! ## Rounding -/

theorem shiftRight_exact (m j : ℕ) :
    (⟨m * 2 ^ j, false, false⟩ : ExtendedMantissa) >>> j = ⟨m, false, false⟩ := by
  change Nat.repeat ExtendedMantissa.shiftRightOne j _ = _
  induction j generalizing m with
  | zero => simp [Nat.repeat]
  | succ j ih =>
    have hdouble : m * 2 ^ (j + 1) = 2 * m * 2 ^ j := by ring
    rw [Nat.repeat, hdouble, ih, ExtendedMantissa.shiftRightOne]
    simp

section Rounding

variable {n : ℕ} (hn : 0 < n) (hlt : n < 2 ^ 53)
include hn hlt

/-- Shifting a whole number to its place loses no digit. -/
theorem shiftToTargetExponent_whole {j : ℕ} (hj : places n ≤ j) :
    UnpackedFloat.shiftToTargetExponent Format.binary64 (n * 2 ^ j) (-j) .exact =
      (⟨n * 2 ^ places n, false, false⟩, -(places n : ℤ)) := by
  obtain ⟨i, rfl⟩ := Nat.exists_eq_add_of_le hj
  have hshift : (-(places n : ℤ) - -((places n + i : ℕ) : ℤ)).toNat = i := by omega
  have hexponent : -((places n + i : ℕ) : ℤ) + (i : ℤ) = -places n := by omega
  have hmantissa : n * 2 ^ (places n + i) = n * 2 ^ places n * 2 ^ i := by ring
  rw [UnpackedFloat.shiftToTargetExponent, targetExponent_whole hn hlt,
    UnpackedFloat.shiftToExponent, hshift, hexponent, hmantissa,
    ExtendedMantissa.ofMantissaAndAccuracy, shiftRight_exact]

theorem isWhole_roundWithAccuracy (s : Sign) {j : ℕ} (hj : places n ≤ j) :
    IsWhole (UnpackedFloat.roundWithAccuracy Format.binary64 s (n * 2 ^ j) (-j) .exact)
      (s.apply n) := by
  have hpos : 0 < n * 2 ^ places n := Nat.mul_pos hn (Nat.two_pow_pos _)
  have hrounded : UnpackedFloat.roundWithAccuracy Format.binary64 s (n * 2 ^ j) (-j) .exact =
      .finite s (n * 2 ^ places n) (-places n) hpos := by
    rw [UnpackedFloat.roundWithAccuracy, shiftToTargetExponent_whole hn hlt hj]
    -- Nothing is rounded off, so the second shift finds the number in its place.
    dsimp only [ExtendedMantissa.roundedMantissa, ExtendedMantissa.accuracy,
      UnpackedFloat.Accuracy.roundToNearestEven]
    rw [shiftToTargetExponent_whole hn hlt le_rfl]
    exact dif_neg hpos.ne'
  rw [hrounded]
  exact .finite s hn hlt hpos

theorem isWhole_round (s : Sign) (j : ℕ) :
    IsWhole (UnpackedFloat.round Format.binary64 s (n * 2 ^ j) (-j)) (s.apply n) := by
  obtain ⟨i, hi⟩ : ∃ i, (-(j : ℤ) - -(places n : ℤ)).toNat = i := ⟨_, rfl⟩
  have hshifted : UnpackedFloat.decreaseExponent (n * 2 ^ j) (-j) (-places n) =
      (n * 2 ^ (j + i), -((j + i : ℕ) : ℤ)) := by
    rw [UnpackedFloat.decreaseExponent, hi, Nat.shiftLeft_eq, Nat.mul_assoc, ← Nat.pow_add]
    congr 1
    omega
  rw [UnpackedFloat.round, targetExponent_whole hn hlt, hshifted]
  exact isWhole_roundWithAccuracy hn hlt s (by omega)

end Rounding

theorem isWhole_normalize {z : ℤ} (hz : z.natAbs < 2 ^ 53) (j : ℕ) (s : Sign) :
    IsWhole (UnpackedFloat.normalize Format.binary64 (z * 2 ^ j) (-j) s) z := by
  have hpos : (0 : ℤ) < 2 ^ j := by positivity
  rw [UnpackedFloat.normalize]
  rcases lt_trichotomy z 0 with hneg | rfl | hpositive
  · obtain ⟨n, rfl⟩ : ∃ n : ℕ, z = -(n : ℤ) := ⟨z.natAbs, by omega⟩
    have hnegative : compare (-(n : ℤ) * 2 ^ j) 0 = .lt :=
      compare_lt_iff_lt.2 (mul_neg_of_neg_of_pos hneg hpos)
    have hmantissa : (-(-(n : ℤ) * 2 ^ j)).toNat = n * 2 ^ j := by
      rw [neg_mul, neg_neg]
      exact_mod_cast Int.toNat_natCast (n * 2 ^ j)
    rw [hnegative]
    dsimp only
    rw [hmantissa]
    exact isWhole_round (by omega) (by omega) .negative j
  · rw [zero_mul]
    exact .zero s
  · obtain ⟨n, rfl⟩ := Int.eq_ofNat_of_zero_le hpositive.le
    have hcompare : compare ((n : ℤ) * 2 ^ j) 0 = .gt :=
      compare_gt_iff_gt.2 (mul_pos hpositive hpos)
    have hmantissa : ((n : ℤ) * 2 ^ j).toNat = n * 2 ^ j := by
      exact_mod_cast Int.toNat_natCast (n * 2 ^ j)
    rw [hcompare]
    dsimp only
    rw [hmantissa]
    exact isWhole_round (by omega) (by omega) .positive j

/-! ## Sums and differences -/

/-- A whole number is shifted further if another one needs it. -/
theorem decreaseExponent_whole {n k : ℕ} (h : places n ≤ k) :
    (UnpackedFloat.decreaseExponent (n * 2 ^ places n) (-places n) (-k)).1 = n * 2 ^ k := by
  obtain ⟨i, rfl⟩ := Nat.exists_eq_add_of_le h
  have hshift : (-(places n : ℤ) - -((places n + i : ℕ) : ℤ)).toNat = i := by omega
  rw [UnpackedFloat.decreaseExponent, hshift, Nat.shiftLeft_eq, Nat.pow_add, Nat.mul_assoc]

/-- The sum of two whole numbers is taken at the smaller of their exponents. -/
theorem add_finite (s t : Sign) {m n : ℕ} (hmpos : 0 < m * 2 ^ places m)
    (hnpos : 0 < n * 2 ^ places n) :
    UnpackedFloat.add Format.binary64 (.finite s (m * 2 ^ places m) (-places m) hmpos)
        (.finite t (n * 2 ^ places n) (-places n) hnpos) =
      UnpackedFloat.normalize Format.binary64
        ((s.apply m + t.apply n) * 2 ^ max (places m) (places n))
        (-(max (places m) (places n) : ℕ)) .positive := by
  have hmin : min (-(places m : ℤ)) (-(places n : ℤ)) = -(max (places m) (places n) : ℕ) := by
    omega
  have hsum : s.apply (m * 2 ^ max (places m) (places n) : ℕ) +
      t.apply (n * 2 ^ max (places m) (places n) : ℕ) =
      (s.apply m + t.apply n) * 2 ^ max (places m) (places n) := by
    push_cast
    rw [apply_mul_right, apply_mul_right, add_mul]
  unfold UnpackedFloat.add
  dsimp only
  rw [hmin]
  rw [decreaseExponent_whole (le_max_left _ _), decreaseExponent_whole (le_max_right _ _), hsum]

namespace IsWhole

variable {u v : UnpackedFloat} {a b : ℤ}

theorem add (hu : IsWhole u a) (hv : IsWhole v b) (h : (a + b).natAbs < 2 ^ 53) :
    IsWhole (UnpackedFloat.add Format.binary64 u v) (a + b) := by
  cases hu with
  | zero s =>
    rw [zero_add]
    cases hv with
    | zero t => cases s <;> cases t <;> exact .zero _
    | finite t hn hlt hpos => exact .finite t hn hlt hpos
  | @finite s m hm hmlt hmpos =>
    cases hv with
    | zero t =>
      rw [add_zero]
      exact .finite s hm hmlt hmpos
    | @finite t n hn hnlt hnpos =>
      rw [add_finite]
      exact isWhole_normalize h _ .positive

theorem neg (hv : IsWhole v b) : IsWhole v.neg (-b) := by
  cases hv with
  | zero s => exact .zero (-s)
  | @finite s n hn hlt hpos =>
    rw [← neg_apply]
    exact .finite (-s) hn hlt hpos

theorem sub (hu : IsWhole u a) (hv : IsWhole v b) (h : (a - b).natAbs < 2 ^ 53) :
    IsWhole (UnpackedFloat.sub Format.binary64 u v) (a - b) := by
  have hsub : UnpackedFloat.sub Format.binary64 u v =
      UnpackedFloat.add Format.binary64 u v.neg := by
    cases hu with
    | zero s => cases hv <;> rfl
    | finite s hm hmlt hmpos =>
      cases hv with
      | zero t => rfl
      | finite t hn hnlt hnpos =>
        unfold UnpackedFloat.neg UnpackedFloat.sub UnpackedFloat.add
        dsimp only
        rw [neg_apply, sub_eq_add_neg]
  rw [hsub, sub_eq_add_neg]
  exact hu.add hv.neg (by rwa [← sub_eq_add_neg])

/-! ## Products -/

theorem mul (hu : IsWhole u a) (hv : IsWhole v b) (h : (a * b).natAbs < 2 ^ 53) :
    IsWhole (UnpackedFloat.mul Format.binary64 u v) (a * b) := by
  cases hu with
  | zero s =>
    rw [zero_mul]
    cases hv <;> exact .zero _
  | @finite s m hm hmlt hmpos =>
    cases hv with
    | zero t =>
      rw [mul_zero]
      exact .zero _
    | @finite t n hn hnlt hnpos =>
      have hsign : s.apply m * t.apply n = (s * t).apply (m * n : ℕ) := by
        rw [Nat.cast_mul, mul_apply]
      have hlt : m * n < 2 ^ 53 := by rwa [hsign, natAbs_apply] at h
      have hmantissa : m * 2 ^ places m * (n * 2 ^ places n) =
          m * n * 2 ^ (places m + places n) := by ring
      have hexponent : -(places m : ℤ) + -(places n : ℤ) = -(places m + places n : ℕ) := by omega
      -- The product has at least as many digits as its first factor.
      have hlog : m.log2 ≤ (m * n).log2 :=
        (Nat.le_log2 (Nat.mul_pos hm hn).ne').2
          ((Nat.log2_self_le hm.ne').trans (Nat.le_mul_of_pos_right m hn))
      have hplaces : places (m * n) ≤ places m + places n := by
        rw [places, places]
        omega
      unfold UnpackedFloat.mul
      dsimp only
      rw [hsign, hmantissa, hexponent]
      exact isWhole_roundWithAccuracy (Nat.mul_pos hm hn) hlt _ hplaces

end IsWhole

/-! ## Comparisons -/

theorem compare_natCast (m n : ℕ) : compare (m : ℤ) (n : ℤ) = compare m n := by
  rcases lt_trichotomy m n with h | rfl | h
  · rw [compare_lt_iff_lt.2 h, compare_lt_iff_lt]
    exact_mod_cast h
  · simp
  · rw [compare_gt_iff_gt.2 h, compare_gt_iff_gt]
    exact_mod_cast h

theorem compare_neg_neg (a b : ℤ) : compare (-a) (-b) = (compare a b).swap := by
  rcases lt_trichotomy a b with h | rfl | h
  · rw [compare_lt_iff_lt.2 h, Ordering.swap, compare_gt_iff_gt]
    exact neg_lt_neg h
  · simp
  · rw [compare_gt_iff_gt.2 h, Ordering.swap, compare_lt_iff_lt]
    exact neg_lt_neg h

/-- Of two mantissas of 53 digits the one with the larger exponent is larger. -/
theorem compare_whole {m n : ℕ} (hm : 0 < m) (hmlt : m < 2 ^ 53) (hn : 0 < n) (hnlt : n < 2 ^ 53) :
    (compare (-(places m : ℤ)) (-(places n : ℤ))).then
      (compare (m * 2 ^ places m) (n * 2 ^ places n)) = compare m n := by
  have hmlog := log2_add_places hm hmlt
  have hnlog := log2_add_places hn hnlt
  have hlt {k l : ℕ} (hl : l ≠ 0) (h : k.log2 < l.log2) : k < l :=
    Nat.lt_log2_self.trans_le ((Nat.pow_le_pow_right two_pos h).trans (Nat.log2_self_le hl))
  rcases lt_trichotomy m.log2 n.log2 with h | h | h
  · rw [compare_lt_iff_lt.2 (by omega), compare_lt_iff_lt.2 (hlt hn.ne' h)]
    rfl
  · have hplaces : places m = places n := by omega
    have hscale : compare (m * 2 ^ places n) (n * 2 ^ places n) = compare m n := by
      rcases lt_trichotomy m n with h | rfl | h
      · rw [compare_lt_iff_lt.2 h, compare_lt_iff_lt]
        exact Nat.mul_lt_mul_of_pos_right h (Nat.two_pow_pos _)
      · simp
      · rw [compare_gt_iff_gt.2 h, compare_gt_iff_gt]
        exact Nat.mul_lt_mul_of_pos_right h (Nat.two_pow_pos _)
    rw [hplaces, hscale, compare_eq_iff_eq.2 rfl]
    rfl
  · rw [compare_gt_iff_gt.2 (by omega), compare_gt_iff_gt.2 (hlt hm.ne' h)]
    rfl

namespace IsWhole

variable {u v : UnpackedFloat} {a b : ℤ}

theorem compare_eq (hu : IsWhole u a) (hv : IsWhole v b) : u.compare v = some (compare a b) := by
  cases hu with
  | zero s =>
    cases hv with
    | zero t => rfl
    | @finite t n hn hnlt hnpos =>
      cases t
      · exact congrArg some (compare_gt_iff_gt.2 (neg_lt_zero.2 (by exact_mod_cast hn))).symm
      · exact congrArg some (compare_lt_iff_lt.2 (by exact_mod_cast hn : (0 : ℤ) < n)).symm
  | @finite s m hm hmlt hmpos =>
    have hmcast : (0 : ℤ) < m := by exact_mod_cast hm
    cases hv with
    | zero t =>
      cases s
      · exact congrArg some (compare_lt_iff_lt.2 (neg_lt_zero.2 hmcast)).symm
      · exact congrArg some (compare_gt_iff_gt.2 hmcast).symm
    | @finite t n hn hnlt hnpos =>
      have hncast : (0 : ℤ) < n := by exact_mod_cast hn
      have hwhole := compare_whole hm hmlt hn hnlt
      cases s <;> cases t
      · refine congrArg some ?_
        rw [hwhole, UnpackedFloat.Sign.apply, UnpackedFloat.Sign.apply, compare_neg_neg,
          compare_natCast]
      · exact congrArg some (compare_lt_iff_lt.2 (by change -(m : ℤ) < n; omega)).symm
      · exact congrArg some (compare_gt_iff_gt.2 (by change -(n : ℤ) < m; omega)).symm
      · refine congrArg some ?_
        rw [hwhole, UnpackedFloat.Sign.apply, UnpackedFloat.Sign.apply, compare_natCast]

theorem le_iff (hu : IsWhole u a) (hv : IsWhole v b) : u.le v = true ↔ a ≤ b := by
  rw [UnpackedFloat.le, hu.compare_eq hv, Option.any_some, Ordering.isLE_iff_ne_gt,
    compare_gt_iff_gt, not_lt]

end IsWhole

/-! ## Values -/

theorem IsWhole.unpackedValue?_eq {u : UnpackedFloat} {z : ℤ} (hu : IsWhole u z) :
    unpackedValue? u = some (z : ℚ) := by
  cases hu with
  | zero s => rfl
  | @finite s n hn hlt hpos =>
    rw [unpackedValue?_finite, Nat.cast_mul, apply_mul_right]
    have h2 : (2 : ℚ) ^ places n ≠ 0 := by positivity
    push_cast
    rw [zpow_neg, zpow_natCast, mul_assoc, mul_inv_cancel₀ h2, mul_one]

/-- A normal number with a whole value below `2 ^ 53` has that value shifted to its place. -/
theorem eq_places_of_value {m n : ℕ} {e : ℤ} (hm : IsNormal m e ∨ m < 2 ^ 52 ∧ e = -1074)
    (hn : 0 < n) (hlt : n < 2 ^ 53) (h : (m : ℚ) * 2 ^ e = n) :
    m = n * 2 ^ places n ∧ e = -places n := by
  have hlog := log2_add_places hn hlt
  obtain ⟨j, rfl | rfl⟩ := Int.eq_nat_or_neg e
  · -- The number is at least `2 ^ 52 * 2 ^ j`, so nothing is left to shift.
    rw [zpow_natCast] at h
    have hvalue : m * 2 ^ j = n := by exact_mod_cast h
    have hnormal : IsNormal m j := hm.resolve_right fun hsmall => by omega
    have hj : j = 0 := by
      by_contra hj
      have htwo : 2 ≤ 2 ^ j := Nat.le_self_pow hj 2
      have hle := Nat.mul_le_mul hnormal.le_mantissa htwo
      omega
    subst hj
    rw [pow_zero, mul_one] at hvalue
    subst hvalue
    have hplaces : places m = 0 := by
      have := hnormal.log2_eq
      omega
    rw [hplaces]
    simp
  · have hpow : (2 : ℚ) ^ j ≠ 0 := by positivity
    rw [zpow_neg, zpow_natCast, mul_inv_eq_iff_eq_mul₀ hpow] at h
    have hvalue : m = n * 2 ^ j := by exact_mod_cast h
    have hnormal : IsNormal m (-j) := by
      refine hm.resolve_right fun ⟨hsmall, hj⟩ => ?_
      have hle : 2 ^ 52 ≤ 2 ^ j := Nat.pow_le_pow_right two_pos (by omega)
      have hle' := Nat.le_mul_of_pos_left (2 ^ j) hn
      omega
    have hj : j = places n := by
      have hlog' := hnormal.log2_eq
      rw [hvalue, log2_mul_two_pow hn] at hlog'
      omega
    rw [hvalue, hj]
    exact ⟨rfl, rfl⟩

/-- A number with a whole value has one of its forms. -/
theorem HasValue.isWhole {v : Float} {z : ℤ} (h : HasValue v z) (hz : z.natAbs < 2 ^ 53) :
    IsWhole v.toModel.unpack z := by
  rw [HasValue] at h
  cases hv : v.toModel.unpack with
  | notANumber =>
    rw [hv] at h
    cases h
  | infinity s =>
    rw [hv] at h
    cases h
  | zero s =>
    rw [hv] at h
    obtain rfl : z = 0 := by exact_mod_cast (Option.some.inj h).symm
    exact .zero s
  | finite s m e hm =>
    rw [hv, unpackedValue?_finite, Option.some_inj] at h
    have hpos : (0 : ℚ) < m * 2 ^ e := by positivity
    have habs : (m : ℚ) * 2 ^ e = z.natAbs := by
      rw [Nat.cast_natAbs, Int.cast_abs, ← h, abs_mul, ← Int.cast_abs, Int.abs_eq_natAbs,
        natAbs_apply, Int.cast_natCast, abs_of_pos (zpow_pos two_pos e)]
    have hsign : z = s.apply z.natAbs := by
      cases s
      · have hneg : (z : ℚ) < 0 := by
          rw [← h, Sign.apply, Int.cast_neg, Int.cast_natCast, neg_mul]
          exact neg_lt_zero.2 hpos
        have hneg' : z < 0 := by exact_mod_cast hneg
        rw [Sign.apply]
        omega
      · have hpos' : 0 < z := by
          have hcast : (0 : ℚ) < z := h ▸ hpos
          exact_mod_cast hcast
        rw [Sign.apply]
        omega
    have hnat : 0 < z.natAbs := by
      have hcast : (0 : ℚ) < z.natAbs := habs ▸ hpos
      exact_mod_cast hcast
    obtain ⟨rfl, rfl⟩ := eq_places_of_value (isNormal_of_unpack hv) hnat hz habs
    have hwhole := IsWhole.finite s hnat hz hm
    rwa [← hsign] at hwhole

/-- Packing keeps the form of a whole number. -/
theorem IsWhole.unpack_pack {u : UnpackedFloat} {z : ℤ} (hu : IsWhole u z) :
    (Float.Model.pack u).unpack = u := by
  cases hu with
  | zero s => exact unpack_pack_zero s
  | finite s hn hlt hpos => exact unpack_pack_finite s hpos (isNormal_whole hn hlt)

/-! ## The sign of zero -/

namespace IsWhole

variable {u v : UnpackedFloat} {a b : ℤ}

/-- A whole number has one form, apart from zero with a minus sign. -/
theorem unique (hu : IsWhole u a) (hv : IsWhole v a) (hune : u ≠ .zero .negative)
    (hvne : v ≠ .zero .negative) : u = v := by
  cases hu with
  | zero s =>
    generalize hz : (0 : ℤ) = z at hv
    cases hv with
    | zero t =>
      cases s
      · exact absurd rfl hune
      · cases t
        · exact absurd rfl hvne
        · rfl
    | @finite t n hn hlt hpos =>
      have habs := natAbs_apply t n
      rw [← hz] at habs
      exact absurd habs.symm hn.ne'
  | @finite s m hm hmlt hmpos =>
    generalize hz : s.apply m = z at hv
    cases hv with
    | zero t =>
      have habs := natAbs_apply s m
      rw [hz] at habs
      exact absurd habs.symm hm.ne'
    | @finite t n hn hlt hpos =>
      obtain rfl : m = n := by rw [← natAbs_apply s m, hz, natAbs_apply]
      obtain rfl : s = t := by
        cases s <;> cases t <;> simp only [Sign.apply] at hz <;> first | rfl | omega
      rfl

theorem ne_zero_of_ne (hu : IsWhole u a) (ha : a ≠ 0) (s : Sign) : u ≠ .zero s := by
  rintro rfl
  cases hu
  exact ha rfl

/-- A sum is zero with a minus sign only if both its terms are. -/
theorem add_ne (hu : IsWhole u a) (hv : IsWhole v b) (h : (a + b).natAbs < 2 ^ 53)
    (hne : v ≠ .zero .negative) :
    UnpackedFloat.add Format.binary64 u v ≠ .zero .negative := by
  by_cases hsum : a + b = 0
  · cases hu with
    | zero s =>
      cases hv with
      | zero t =>
        cases t
        · exact absurd rfl hne
        · cases s <;> exact nofun
      | finite t hn hlt hpos => exact nofun
    | @finite s m hm hmlt hmpos =>
      cases hv with
      | zero t => exact nofun
      | @finite t n hn hnlt hnpos =>
        rw [add_finite, hsum, zero_mul]
        exact nofun
  · exact (hu.add hv h).ne_zero_of_ne hsum _

/-- The product of a number that is no zero with a minus sign and a positive number is none. -/
theorem mul_ne {k : ℕ} (hu : IsWhole u k) (hv : IsWhole v b) (hb : 0 < b)
    (h : (k * b).natAbs < 2 ^ 53) (hne : u ≠ .zero .negative) :
    UnpackedFloat.mul Format.binary64 u v ≠ .zero .negative := by
  rcases Nat.eq_zero_or_pos k with rfl | hk
  · obtain rfl : u = .zero .positive := hu.unique (.zero .positive) hne nofun
    cases hv with
    | zero s => exact absurd hb (lt_irrefl 0)
    | finite s hn hlt hpos =>
      cases s
      · rw [Sign.apply] at hb
        omega
      · exact nofun
  · have hprod : 0 < k * b := Int.mul_pos (by exact_mod_cast hk) hb
    exact (hu.mul hv h).ne_zero_of_ne hprod.ne' _

end IsWhole

/-! ## Operations -/

section Operations

variable {x y : Float} {a b : ℤ} (hx : IsWhole x.toModel.unpack a)
  (hy : IsWhole y.toModel.unpack b)
include hx hy

theorem unpack_sub (h : (a - b).natAbs < 2 ^ 53) : (x - y).toModel.unpack =
    UnpackedFloat.sub Format.binary64 x.toModel.unpack y.toModel.unpack :=
  (hx.sub hy h).unpack_pack

theorem unpack_mul (h : (a * b).natAbs < 2 ^ 53) : (x * y).toModel.unpack =
    UnpackedFloat.mul Format.binary64 x.toModel.unpack y.toModel.unpack :=
  (hx.mul hy h).unpack_pack

theorem le_iff_of_isWhole : x ≤ y ↔ a ≤ b := by
  rw [← hx.le_iff hy]
  change Float.le x y = true ↔ _
  rw [Float.le, decide_eq_true_iff]
  rfl

end Operations

/-! ## Numbers of natural numbers and integers -/

theorem isWhole_one : IsWhole (Float.ofBits 0x3FF0000000000000).toModel.unpack 1 :=
  .finite .positive one_pos (by decide) (by decide)

theorem ofNat_eq {n : ℕ} (hn : n < 2 ^ 53) :
    Float.ofNat n = n.toUInt64.toFloat * Float.ofBits 0x3FF0000000000000 := by
  change Float.ofScientific n false 0 = _
  rw [Float.ofScientific, dif_pos ⟨hn, by omega⟩]
  rfl

theorem isWhole_ofInt {z : ℤ} (hz : z.natAbs < 2 ^ 53) :
    IsWhole (UnpackedFloat.ofInt Format.binary64 z) z := by
  have hwhole := isWhole_normalize hz 0 .positive
  rwa [pow_zero, mul_one] at hwhole

theorem ofInt_ne_zero_negative {z : ℤ} (hz : z.natAbs < 2 ^ 53) :
    UnpackedFloat.ofInt Format.binary64 z ≠ .zero .negative := by
  by_cases hzero : z = 0
  · rw [hzero]
    exact nofun
  · exact (isWhole_ofInt hz).ne_zero_of_ne hzero _

/-- The number of a natural number is exact, and no zero with a minus sign. -/
theorem exists_ofNat_eq_pack {n : ℕ} (hn : n < 2 ^ 53) :
    ∃ u, Float.ofNat n = .ofModel (Float.Model.pack u) ∧ IsWhole u n ∧ u ≠ .zero .negative := by
  have hword : n.toUInt64.toNat = n :=
    Nat.mod_eq_of_lt (hn.trans (by decide))
  have hwhole := isWhole_ofInt (show (n : ℤ).natAbs < 2 ^ 53 from hn)
  have hne := ofInt_ne_zero_negative (show (n : ℤ).natAbs < 2 ^ 53 from hn)
  have hunpack : n.toUInt64.toFloat.toModel.unpack = UnpackedFloat.ofInt Format.binary64 n := by
    change (Float.Model.pack (UnpackedFloat.ofNat Format.binary64 n.toUInt64.toNat)).unpack = _
    rw [hword]
    exact hwhole.unpack_pack
  have hbound : ((n : ℤ) * 1).natAbs < 2 ^ 53 := by rwa [mul_one]
  refine ⟨_, ofNat_eq hn, ?_, ?_⟩
  · rw [hunpack]
    simpa using hwhole.mul isWhole_one hbound
  · rw [hunpack]
    exact hwhole.mul_ne isWhole_one one_pos hbound hne

/-- The number of an integer is exact, and no zero with a minus sign. -/
theorem exists_ofInt_eq_pack {z : ℤ} (hz : z.natAbs < 2 ^ 53) :
    ∃ u, Float.ofInt z = .ofModel (Float.Model.pack u) ∧ IsWhole u z ∧ u ≠ .zero .negative := by
  cases z with
  | ofNat n => exact exists_ofNat_eq_pack hz
  | negSucc n =>
    obtain ⟨u, hu, hwhole, -⟩ := exists_ofNat_eq_pack (show n + 1 < 2 ^ 53 from hz)
    refine ⟨u.neg, ?_, hwhole.neg, hwhole.neg.ne_zero_of_ne (by omega) _⟩
    change Float.neg (Float.ofNat (n + 1)) = _
    rw [hu]
    change Float.ofModel (.pack (Float.Model.pack u).unpack.neg) = _
    rw [hwhole.unpack_pack]

theorem hasValue_ofInt {z : ℤ} (hz : z.natAbs < 2 ^ 53) : HasValue (Float.ofInt z) z := by
  obtain ⟨u, hu, hwhole, -⟩ := exists_ofInt_eq_pack hz
  rw [HasValue, hu]
  change unpackedValue? (Float.Model.pack u).unpack = _
  rw [hwhole.unpack_pack, hwhole.unpackedValue?_eq]

theorem hasValue_ofNat (n : ℕ) (hn : n < 2 ^ 53) : HasValue (OfNat.ofNat n) (n : ℤ) :=
  @hasValue_ofInt (Int.ofNat n) hn

end DeckScript.Number
