import Mathlib.Algebra.Field.Rat

/-!
# Packed numbers

A floating-point number is kept as bits and computed with as a sign, a mantissa and an exponent. A
normal number has a mantissa of 53 binary digits, whose first one is left out of the bits. Packing a
normal number and unpacking it again gives the same sign, mantissa and exponent.

## Main definitions

* `Number.HasValue` — the value of a finite number
* `Number.IsNormal` — mantissas and exponents of normal numbers

## Main results

* `unpack_pack_finite` — a normal number is unpacked as it was packed
* `isNormal_of_unpack` — what unpacking a finite number gives
-/

namespace DeckScript.Number

open Float.Model

/-- The value of an unpacked number, if it is finite. -/
def unpackedValue? : UnpackedFloat → Option ℚ
  | .zero _ => some 0
  | .finite s m e _ => some (s.apply m * 2 ^ e)
  | .infinity _ | .notANumber => none

theorem unpackedValue?_finite (s : UnpackedFloat.Sign) {m : ℕ} (e : ℤ) (hm : 0 < m) :
    unpackedValue? (.finite s m e hm) = some (s.apply m * 2 ^ e : ℚ) := rfl

/-- The number is finite and has the value `q`. -/
def HasValue (v : Float) (q : ℚ) : Prop := unpackedValue? v.toModel.unpack = some q

/-- A mantissa of 53 binary digits, and an exponent that has a place in the bits. -/
structure IsNormal (m : ℕ) (e : ℤ) : Prop where
  le_mantissa : 2 ^ 52 ≤ m
  mantissa_lt : m < 2 ^ 53
  le_exponent : -1074 ≤ e
  exponent_le : e ≤ 971

theorem IsNormal.log2_eq {m : ℕ} {e : ℤ} (h : IsNormal m e) : m.log2 = 52 :=
  (Nat.log2_eq_iff (by have := h.le_mantissa; omega)).2 ⟨h.le_mantissa, h.mantissa_lt⟩

/-! ## Unpacking what was packed -/

theorem bias_eq : (Format.binary64.exponentBias : ℤ) = 1023 := rfl

theorem ofBitVec_unpackSign (format : Format) (s : UnpackedFloat.Sign)
    (e : BitVec format.exponentBits) (m : BitVec format.mantissaBitsWithoutImplicit) :
    UnpackedFloat.Sign.ofBitVec
      (UnpackedFloat.unpackSign (UnpackedFloat.packComponents format s e m)) = s := by
  have hbit : UnpackedFloat.unpackSign (UnpackedFloat.packComponents format s e m) =
      s.toBitVec := by
    ext i hi
    obtain rfl : i = 0 := by omega
    unfold UnpackedFloat.unpackSign
    simp [UnpackedFloat.packComponents, BitVec.getLsbD_append, BitVec.getElem_append]
  rw [hbit]
  cases s <;> rfl

/-- The first digit of a mantissa comes back in front of the others. -/
theorem toNat_one_append (m : BitVec 52) : (1#1 ++ m).toNat = 2 ^ 52 + m.toNat := by
  rw [BitVec.toNat_append, ← Nat.shiftLeft_add_eq_or_of_lt m.isLt, Nat.shiftLeft_eq]
  rfl

theorem unpack_pack_zero (s : UnpackedFloat.Sign) :
    (Float.Model.pack (.zero s)).unpack = .zero s := by
  cases s <;> rfl

/-- A normal number is unpacked as it was packed. -/
theorem unpack_pack_finite (s : UnpackedFloat.Sign) {m : ℕ} {e : ℤ} (hm : 0 < m)
    (h : IsNormal m e) : (Float.Model.pack (.finite s m e hm)).unpack = .finite s m e hm := by
  obtain ⟨hlow, hhigh, helow, hehigh⟩ := id h
  obtain ⟨biased, hbiased⟩ : ∃ biased : ℕ, e = biased - 1075 := ⟨(e + 1075).toNat, by omega⟩
  have hpacked : UnpackedFloat.pack Format.binary64 (.finite s m e hm) =
      UnpackedFloat.packComponents Format.binary64 s (BitVec.ofNat 11 biased)
        (BitVec.ofNat 52 m) := by
    have htoNat : (e + Format.binary64.exponentBias + (52 : ℕ)).toNat = biased := by
      rw [bias_eq]
      omega
    unfold UnpackedFloat.pack
    dsimp only
    rw [htoNat, h.log2_eq, if_neg (by omega),
      if_pos (show 52 + 1 = Format.binary64.mantissaBits from rfl)]
  have hmantissa : (1#1 ++ BitVec.ofNat 52 m).toNat = m := by
    rw [toNat_one_append, BitVec.toNat_ofNat]
    omega
  have hexponent : (BitVec.ofNat 11 biased).toNat = biased := by
    rw [BitVec.toNat_ofNat]
    omega
  have hones : BitVec.ofNat 11 biased ≠ -1#11 := by
    intro heq
    rw [heq] at hexponent
    change 2047 = biased at hexponent
    omega
  have hzero : BitVec.ofNat 11 biased ≠ 0#11 := by
    intro heq
    rw [heq] at hexponent
    change 0 = biased at hexponent
    omega
  change UnpackedFloat.unpack Format.binary64 (UnpackedFloat.pack Format.binary64 _) = _
  rw [hpacked]
  unfold UnpackedFloat.unpack
  dsimp only
  rw [if_neg (by rwa [UnpackedFloat.unpackExponent_packComponents]),
    if_neg (by rwa [UnpackedFloat.unpackExponent_packComponents]), UnpackedFloat.finite.injEq,
    UnpackedFloat.unpackMantissa_packComponents, UnpackedFloat.unpackExponent_packComponents,
    hmantissa, hexponent, bias_eq]
  exact ⟨ofBitVec_unpackSign .., rfl, by omega⟩

/-! ## What unpacking gives -/

/-- A finite number is normal, or it has the least exponent and fewer digits. -/
theorem isNormal_of_unpack {v : Float.Model} {s : UnpackedFloat.Sign} {m : ℕ} {e : ℤ} {hm : 0 < m}
    (h : v.unpack = .finite s m e hm) : IsNormal m e ∨ m < 2 ^ 52 ∧ e = -1074 := by
  have hmantissa := (@UnpackedFloat.unpackMantissa Format.binary64 v.toBits.toBitVec).isLt
  have hexponent := (@UnpackedFloat.unpackExponent Format.binary64 v.toBits.toBitVec).isLt
  unfold Float.Model.unpack UnpackedFloat.unpack at h
  dsimp only at h hmantissa hexponent
  by_cases hones : @UnpackedFloat.unpackExponent Format.binary64 v.toBits.toBitVec = -1#11
  · rw [if_pos hones] at h
    by_cases hnone : @UnpackedFloat.unpackMantissa Format.binary64 v.toBits.toBitVec = 0#52
    · rw [if_pos hnone] at h
      cases h
    · rw [if_neg hnone] at h
      cases h
  rw [if_neg hones] at h
  by_cases hzero : @UnpackedFloat.unpackExponent Format.binary64 v.toBits.toBitVec = 0#11
  · rw [if_pos hzero] at h
    by_cases hnone : @UnpackedFloat.unpackMantissa Format.binary64 v.toBits.toBitVec = 0#52
    · rw [dif_pos hnone] at h
      cases h
    rw [dif_neg hnone, UnpackedFloat.finite.injEq] at h
    obtain ⟨-, rfl, rfl⟩ := h
    refine .inr ⟨hmantissa, ?_⟩
    rw [hzero, bias_eq]
    rfl
  · rw [if_neg hzero, UnpackedFloat.finite.injEq, toNat_one_append] at h
    obtain ⟨-, rfl, rfl⟩ := h
    have hones' := fun heq => hones (BitVec.eq_of_toNat_eq heq)
    have hzero' := fun heq => hzero (BitVec.eq_of_toNat_eq heq)
    change _ ≠ 2047 at hones'
    change _ ≠ 0 at hzero'
    rw [bias_eq]
    exact .inl ⟨by omega, by omega, by omega, by omega⟩

end DeckScript.Number
