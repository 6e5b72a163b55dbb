import DeckScript.Proofs.LoopEntry
import DeckScript.Proofs.Sequence
import DeckScript.Proofs.WholeQuotients
import Mathlib.Data.Int.ConditionallyCompleteOrder
import Mathlib.Data.Rat.Floor

/-!
# Loops over ranges

A loop over a range computes in two ways: how many values there are is found by dividing, and each
value by multiplying. The two fit together. With exact fractions they do for any range, and with
floating-point numbers they do for whole numbers up to `2 ^ 50`, where the whole part of the rounded
quotient is still right and no value is rounded.

## Main definitions

* `Loop.runTerms` — carrying out a step for each value of a range, over any kind of numbers
* `Loop.Covers` — so many values of a range stand up to its last one
* `boundRecords` — what a loop carries out for one value

## Main results

* `runSource_range` — a loop over a range does this with floating-point numbers
* `exists_covers_count` — counting by division counts the values up to the last one
* `exists_covers_floatCount`, `term_eq_ofInt` — whole numbers are counted and computed without error
* `loops_cover_ranges` — a loop repeats its body for the values up to the last one, in order
-/

namespace DeckScript

variable {φ : Type}

namespace Loop

/-- Carry out a step for each value of a range. `whole`, `ofNat` and `text` give the whole part of a
number, the number of a natural number and the text of a number. -/
def runTerms {α : Type} [LE α] [DecidableLE α] [Add α] [Sub α] [Mul α] [Div α] (whole : α → ℕ)
    (ofNat : ℕ → α) (text : α → String) (each : String → Step φ) (first last step : α) : Step φ :=
  runSteps ((List.range (count whole first last step)).map fun k =>
    each (text (term ofNat first step k)))

/-- The first `n` of the values `first`, `first + step`, … stand up to `last`, and no others. -/
def Covers {R : Type} [Semiring R] [Preorder R] (first last step : R) (n : ℕ) : Prop :=
  ∀ k : ℕ, k < n ↔ first + k * step ≤ last

theorem Covers.eq_zero {R : Type} [Semiring R] [Preorder R] {first last step : R} {n : ℕ}
    (h : Covers first last step n) (hlt : last < first) : n = 0 := by
  have hzero := h 0
  rw [Nat.cast_zero, zero_mul, add_zero] at hzero
  exact Nat.eq_zero_of_not_pos fun hpos => hlt.not_ge (hzero.1 hpos)

/-! ## Exact numbers -/

/-- Counting by division counts the values up to the last one. -/
theorem exists_covers_count {first last step : ℚ} (hstep : 0 < step) :
    ∃ n, Covers first last step n ∧ count Nat.floor first last step = min n maxCount := by
  by_cases hle : first ≤ last
  · refine ⟨⌊(last - first) / step⌋₊ + 1, fun k => ?_, ?_⟩
    · have hquotient : 0 ≤ (last - first) / step := div_nonneg (sub_nonneg.2 hle) hstep.le
      rw [Nat.lt_succ_iff, Nat.le_floor_iff hquotient, le_div_iff₀ hstep, le_sub_iff_add_le,
        add_comm]
    · rw [count, if_pos hle]
  · refine ⟨0, fun k => ?_, ?_⟩
    · have hnonneg : 0 ≤ k * step := by positivity
      have hlt : last < first + k * step := (not_le.1 hle).trans_le (le_add_of_nonneg_right hnonneg)
      simp [hlt]
    · rw [count, if_neg hle, Nat.zero_min]

theorem runTerms_covers (text : ℚ → String) (each : String → Step φ) {first last step : ℚ} {n : ℕ}
    (hcount : count Nat.floor first last step = min n maxCount) (hn : n ≤ maxCount) :
    runTerms Nat.floor Nat.cast text each first last step =
      runSteps ((List.range n).map fun k : ℕ => each (text (first + k * step))) := by
  rw [runTerms, hcount, min_eq_left hn]
  rfl

/-! ## Whole numbers -/

section Whole

open Number

variable {first last step : Float} {b e s : ℤ} (hfirst : IsWhole first.toModel.unpack b)
  (hstep : IsWhole step.toModel.unpack s) (hs : 0 < s)
include hfirst hstep hs

/-- Whole numbers are counted without an error. -/
theorem exists_covers_floatCount (hlast : IsWhole last.toModel.unpack e)
    (hspan : (e - b).natAbs < 2 ^ 53) :
    ∃ n, Covers b e s n ∧ floatCount first last step = min n maxCount ∧ n ≤ maxCount := by
  obtain ⟨t, rfl⟩ := Int.eq_ofNat_of_zero_le hs.le
  have ht : 0 < t := by exact_mod_cast hs
  by_cases hle : b ≤ e
  · obtain ⟨a, ha⟩ := Int.eq_ofNat_of_zero_le (sub_nonneg.2 hle)
    have hdiff := hlast.sub hfirst hspan
    rw [← unpack_sub hlast hfirst hspan, ha] at hdiff
    refine ⟨a / t + 1, fun k => ?_, ?_, ?_⟩
    · rw [Nat.lt_succ_iff, Nat.le_div_iff_mul_le ht, ← Int.ofNat_le, Nat.cast_mul]
      omega
    · rw [floatCount, count, if_pos ((le_iff_of_isWhole hfirst hlast).2 hle),
        wholePart_div hdiff hstep ht]
    · have hquotient : a / t ≤ a := Nat.div_le_self a t
      rw [maxCount, UInt64.size]
      omega
  · refine ⟨0, fun k => ?_, ?_, Nat.zero_le _⟩
    · have hnonneg : 0 ≤ (k : ℤ) * t := by positivity
      simp only [Nat.not_lt_zero, false_iff]
      omega
    · rw [floatCount, count, if_neg (mt (le_iff_of_isWhole hfirst hlast).1 hle), Nat.zero_min]

/-- The values that stand up to a whole number are computed without an error. -/
theorem term_eq_ofInt {k : ℕ} (hb : b.natAbs ≤ 2 ^ 50) (he : e.natAbs ≤ 2 ^ 50)
    (hk : b + k * s ≤ e) : term Float.ofNat first step k = Float.ofInt (b + k * s) := by
  have hks : (k : ℤ) ≤ k * s := le_mul_of_one_le_right (Int.natCast_nonneg k) hs
  have hk' : k < 2 ^ 53 := by omega
  have hprod : (k * s).natAbs < 2 ^ 53 := by omega
  have hsum : (b + k * s).natAbs < 2 ^ 53 := by omega
  obtain ⟨u, hu, huk, hune⟩ := exists_ofNat_eq_pack hk'
  obtain ⟨v, hv, hvsum, hvne⟩ := exists_ofInt_eq_pack hsum
  have hkwhole : (Float.ofNat k).toModel.unpack = u := by
    rw [hu]
    exact huk.unpack_pack
  rw [← hkwhole] at huk hune
  have hproduct := huk.mul hstep hprod
  have hproductne := huk.mul_ne hstep hs hprod hune
  rw [← unpack_mul huk hstep hprod] at hproduct hproductne
  rw [hv, ← (hfirst.add hproduct hsum).unique hvsum (hfirst.add_ne hproduct hsum hproductne) hvne]
  rfl

theorem runTerms_whole {n : ℕ} (hcovers : Covers b e s n) (hb : b.natAbs ≤ 2 ^ 50)
    (he : e.natAbs ≤ 2 ^ 50) (hcount : floatCount first last step = n) (each : String → Step φ) :
    runTerms wholePart Float.ofNat Number.text each first last step =
      runSteps ((List.range n).map fun k : ℕ =>
        each (Number.text (Float.ofInt (b + k * s)))) := by
  rw [runTerms, ← floatCount, hcount]
  refine congrArg runSteps (List.map_congr_left fun k hk => ?_)
  have hk := (hcovers k).1 (List.mem_range.1 hk)
  exact congrArg (fun v => each (Number.text v)) (term_eq_ofInt hfirst hstep hs hb he hk)

end Whole

end Loop

/-! ## Running over a range -/

section Running

open Loop Number

variable [FileStore φ]

/-- A loop over a range carries out its body for the values of the range. -/
theorem runSource_range (each : String → Step φ) (first last step : Float) (w : World φ) :
    runSource each (.range first last step) w =
      .outcome (runTerms wholePart Float.ofNat Number.text each first last step w) := by
  rw [runSource_eq, Source.values]
  dsimp only
  rw [List.map_map]
  rfl

/-- The records of a body with a value in place of the placeholder. -/
def boundRecords (body : List SourceLine) (store : Store) (placeholder value : String) :
    List Record :=
  (body.map fun l => l.record store).map fun r => r.bind placeholder value

theorem runLoop_range (exec : Record → Step φ) {header : SourceLine} (body : List SourceLine)
    {w : World φ} {placeholder : String} {first last step : Float}
    (hheader : Header.ofRecord (header.record w.store) =
      .ok ⟨placeholder, .range first last step⟩) :
    runLoop exec header body w =
      .outcome (runTerms wholePart Float.ofNat Number.text
        (fun value => runRecords exec (boundRecords body w.store placeholder value))
        first last step w) := by
  rw [runLoop, hheader]
  exact runSource_range ..

/-- A loop over a range repeats its body once for each of the values `first`, `first + step`, … up
to the last one, in order. This holds of exact numbers, and of floating-point numbers that are whole
and at most `2 ^ 50`. If there are more than `2 ^ 64 - 1` values, this is how many are counted. -/
theorem loops_cover_ranges :
    (∀ (each : String → Step φ) (first last step : Float) (w : World φ),
      runSource each (.range first last step) w =
        .outcome (runTerms wholePart Float.ofNat Number.text each first last step w)) ∧
    (∀ first last step : ℚ, 0 < step → ∃ n, Covers first last step n ∧ (last < first → n = 0) ∧
      count Nat.floor first last step = min n (2 ^ 64 - 1) ∧
      (n < 2 ^ 64 → ∀ (text : ℚ → String) (each : String → Step φ),
        runTerms Nat.floor Nat.cast text each first last step =
          runSteps ((List.range n).map fun k : ℕ => each (text (first + k * step))))) ∧
    ∀ (first last step : Float) (b e s : ℤ), HasValue first b → HasValue last e →
      HasValue step s → |b| ≤ 2 ^ 50 → |e| ≤ 2 ^ 50 → |s| ≤ 2 ^ 50 → 1 ≤ s →
      ∃ n, Covers b e s n ∧ (e < b → n = 0) ∧
        floatCount first last step = min n (2 ^ 64 - 1) ∧ n < 2 ^ 64 ∧
        (∀ k < n, HasValue (Float.ofInt (b + k * s)) (b + k * s : ℤ)) ∧
        ∀ (exec : Record → Step φ) (header : SourceLine) (body : List SourceLine) (w : World φ)
          (placeholder : String),
          Header.ofRecord (header.record w.store) = .ok ⟨placeholder, .range first last step⟩ →
          runLoop exec header body w =
            .outcome (runSteps ((List.range n).map fun k : ℕ =>
              runRecords exec (boundRecords body w.store placeholder
                (Number.text (Float.ofInt (b + k * s))))) w) := by
  refine ⟨runSource_range, fun first last step hstep => ?_,
    fun first last step b e s hfirst hlast hstep hb he hs hpos => ?_⟩
  · obtain ⟨n, hcovers, hcount⟩ := @exists_covers_count first last step hstep
    exact ⟨n, hcovers, hcovers.eq_zero, hcount,
      fun hn text each => runTerms_covers text each hcount (Nat.le_of_lt_succ hn)⟩
  · rw [Int.abs_eq_natAbs] at hb he hs
    have hfirst' := hfirst.isWhole (by omega)
    have hlast' := hlast.isWhole (by omega)
    have hstep' := hstep.isWhole (by omega)
    obtain ⟨n, hcovers, hcount, hn⟩ :=
      exists_covers_floatCount hfirst' hstep' hpos hlast' (by omega)
    refine ⟨n, hcovers, hcovers.eq_zero, hcount, Nat.lt_succ_of_le hn, fun k hk => ?_,
      fun exec header body w placeholder hheader => ?_⟩
    · have hle := (hcovers k).1 hk
      have hnonneg : 0 ≤ k * s := Int.mul_nonneg (Int.natCast_nonneg k) (by omega)
      exact hasValue_ofInt (by omega)
    · rw [min_eq_left hn] at hcount
      rw [runLoop_range exec body hheader,
        runTerms_whole hfirst' hstep' hpos hcovers (by omega) (by omega) hcount]

/-- The values of `for i = 1 8 3` are 1, 4 and 7. -/
theorem loops_cover_ranges_thirds :
    let header : SourceLine := ⟨1, "for i = 1 8 3"⟩
    let body : List SourceLine := [⟨2, "square i 2 1"⟩]
    let exec := dispatch bareEnvironment 1
    let w := bareWorld .empty
    (0 < (3 / 2 : ℚ) ∧ Loop.count Nat.floor 1 4 (3 / 2 : ℚ) = 3) ∧
      (HasValue 1 (1 : ℤ) ∧ HasValue 8 (8 : ℤ) ∧ HasValue 3 (3 : ℤ) ∧
        |(1 : ℤ)| ≤ 2 ^ 50 ∧ |(8 : ℤ)| ≤ 2 ^ 50 ∧ |(3 : ℤ)| ≤ 2 ^ 50 ∧ (1 : ℤ) ≤ 3 ∧
        Header.ofRecord (header.record w.store) = .ok ⟨"i", .range 1 8 3⟩) ∧
      runLoop exec header body w =
        .outcome (runSteps ((List.range 3).map fun k : ℕ =>
          runRecords exec (boundRecords body w.store "i"
            (Number.text (Float.ofInt (1 + k * 3))))) w) := by
  intro header body exec w
  have hheader : Header.ofRecord (header.record w.store) = .ok ⟨"i", .range 1 8 3⟩ := by
    decide +kernel
  have hone : HasValue 1 (1 : ℤ) := hasValue_ofNat 1 (by norm_num)
  have height : HasValue 8 (8 : ℤ) := hasValue_ofNat 8 (by norm_num)
  have hthree : HasValue 3 (3 : ℤ) := hasValue_ofNat 3 (by norm_num)
  obtain ⟨-, hexact, hwhole⟩ := @loops_cover_ranges MemoryFiles _
  refine ⟨⟨by norm_num, ?_⟩, ⟨hone, height, hthree, by decide, by decide, by decide, by decide,
    hheader⟩, ?_⟩
  · obtain ⟨n, hcovers, -, hcount, -⟩ := hexact 1 4 (3 / 2) (by norm_num)
    have hn : n = 3 := by
      have htwo := (hcovers 2).2 (by norm_num)
      have hthree := mt (hcovers 3).1 (by norm_num)
      omega
    rw [hcount, hn]
    rfl
  · obtain ⟨n, hcovers, -, -, -, -, hrun⟩ := hwhole 1 8 3 1 8 3 hone height hthree (by decide)
      (by decide) (by decide) (by decide)
    have hn : n = 3 := by
      have htwo := (hcovers 2).2 (by decide)
      have hthree := mt (hcovers 3).1 (by decide)
      omega
    rw [hrun exec header body w "i" hheader, hn]

end Running

end DeckScript
