import Lifecycle.Proofs.Rounding
/-!
Counting with binary floating point numbers. One more than a whole number below `2 ^ 63` is rounded to a whole
number below it: large numbers are so far apart that the greatest of them stays. -/

namespace Lifecycle.Decimal.Binary64

theorem isFinite_make (negative : Bool) {code : Nat} (bound : code < 2047 * 2 ^ 52) :
    (make negative code).isFinite = true := by
  have ⟨exponent, _⟩ := fields_make negative (show code / 2 ^ 52 < 2 ^ 11 by omega)
    (Nat.mod_lt code (by decide))
  rw [Nat.div_add_mod'] at exponent
  rw [isFinite, exponent, bne_iff_ne]
  omega

theorem negative_make {code : Nat} (bound : code < 2 ^ 63) : (make false code).negative = false := by
  rw [negative, toNat_make false bound, decide_eq_false_iff_not]
  simp only [Nat.pow_eq, Bool.false_eq_true, if_false]
  omega

theorem pack_finite {power : Int} {whole : Nat} (low : -1074 ≤ power) (high : power ≤ 900)
    (bound : whole ≤ 2 ^ 53) :
    (pack false power whole).isFinite = true ∧ (pack false power whole).negative = false := by
  rw [pack]
  simp only [Nat.pow_eq]
  split
  · exact ⟨isFinite_make false (by omega), negative_make (by omega)⟩
  · rw [if_pos (by omega)]
    exact ⟨isFinite_make false (by omega), negative_make (by omega)⟩

theorem magnitude_eq (x : Binary64) : x.magnitude = (x.fraction.1 : ℚ) / x.fraction.2 := by
  have value := scaled_value x.significand 1 x.scale
  rw [Nat.cast_one, div_one] at value
  exact value.symm

theorem magnitude_eq_iff {x : Binary64} {n : Nat} :
    x.magnitude = n ↔ x.fraction.1 = n * x.fraction.2 := by
  have positive : (x.fraction.2 : ℚ) ≠ 0 := by exact_mod_cast x.fraction_pos.ne'
  rw [magnitude_eq, div_eq_iff positive]
  exact_mod_cast Iff.rfl

theorem eq_mul_iff {a b : Nat} (positive : 0 < b) (n : Int) :
    (a : Int) = n * b ↔ a % b = 0 ∧ (a : Int) / b = n := by
  have nonzero : (b : Int) ≠ 0 := by omega
  constructor
  · intro same
    have exact : (a : Int) % b = 0 := by rw [same, Int.mul_emod_left]
    exact ⟨by exact_mod_cast exact, by rw [same, Int.mul_ediv_cancel _ nonzero]⟩
  · rintro ⟨exact, rfl⟩
    have divides : (b : Int) ∣ a := Int.natCast_dvd_natCast.mpr (Nat.dvd_of_mod_eq_zero exact)
    exact (Int.ediv_mul_cancel divides).symm

/-- Only finite numbers are whole. -/
theorem toInt?_eq_some_iff {x : Binary64} {n : Int} :
    x.toInt? = some n ↔ x.isFinite = true ∧ x.ratio.1 = n * x.ratio.2 := by
  have unsigned := eq_mul_iff (a := x.fraction.1) x.fraction_pos
  rw [toInt?, ratio, ← fraction]
  cases x.isFinite with
  | false => simp
  | true =>
      simp only [Bool.not_true, Bool.false_eq_true, if_false, true_and]
      split
      · next exact =>
        cases x.negative with
        | false => simp only [Bool.false_eq_true, if_false, Option.some.injEq, unsigned, exact, true_and]
        | true =>
            simp only [if_true, Option.some.injEq]
            rw [neg_eq_iff_eq_neg, neg_eq_iff_eq_neg, ← Int.neg_mul, unsigned]
            simp only [exact, true_and]
      · next inexact =>
        constructor
        · intro other
          cases other
        · intro same
          split at same
          · rw [neg_eq_iff_eq_neg, ← Int.neg_mul] at same
            exact absurd ((unsigned _).mp same).1 inexact
          · exact absurd ((unsigned _).mp same).1 inexact

theorem toInt?_of_magnitude {x : Binary64} (finite : x.isFinite = true) (plain : x.negative = false)
    {n : Nat} (whole : x.magnitude = n) : x.toInt? = some (n : Int) := by
  have parts : (x.fraction.1 : Int) = n * x.fraction.2 := by
    exact_mod_cast magnitude_eq_iff.mp whole
  apply toInt?_eq_some_iff.mpr
  rw [ratio, plain]
  exact ⟨finite, parts⟩

theorem magnitude_of_toInt? {x : Binary64} {n : Nat} (whole : x.toInt? = some (n : Int)) :
    x.magnitude = n := by
  have parts := congrArg Int.natAbs (toInt?_eq_some_iff.mp whole).2
  apply magnitude_eq_iff.mpr
  rw [Int.natAbs_mul, Int.natAbs_natCast] at parts
  have unsigned : x.ratio.1.natAbs = x.fraction.1 := by
    rw [ratio]
    simp only
    split <;> omega
  rw [← unsigned, parts]
  rfl

/-- A number of 53 bits below `2 ^ 63` keeps its distance. -/
theorem magnitude_bound {x : Binary64} {n : Nat} (whole : x.magnitude = n) (below : n < 2 ^ 63) :
    n + 1024 ≤ 2 ^ 63 := by
  have short := x.significand_lt
  by_cases coarse : 10 ≤ x.scale
  · obtain ⟨k, same⟩ : ∃ k : Nat, x.scale = (10 + k : Nat) := ⟨(x.scale - 10).toNat, by omega⟩
    rw [magnitude, same, zpow_natCast] at whole
    have whole : x.significand * 2 ^ (10 + k) = n := by exact_mod_cast whole
    rw [Nat.pow_add] at whole
    have multiple : 2 ^ 10 ∣ n := ⟨x.significand * 2 ^ k, by rw [← whole]; ring⟩
    omega
  · have unit : (2 : ℚ) ^ x.scale ≤ 2 ^ (9 : Int) := zpow_le_zpow_right₀ (by norm_num) (by omega)
    have short : (x.significand : ℚ) ≤ 2 ^ 53 := by exact_mod_cast short.le
    have bound : (n : ℚ) ≤ 2 ^ 62 := by
      calc (n : ℚ) = x.significand * 2 ^ x.scale := whole.symm
        _ ≤ 2 ^ 53 * 2 ^ (9 : Int) := by gcongr
        _ = 2 ^ 62 := by norm_num
    have bound : n ≤ 2 ^ 62 := by exact_mod_cast bound
    omega

theorem roundQuotient_whole {num unit n : Nat} (positive : 0 < unit) (whole : (num : ℚ) / unit = n) :
    roundQuotient num unit = n := by
  have nonzero : (unit : ℚ) ≠ 0 := by exact_mod_cast positive.ne'
  rw [div_eq_iff nonzero] at whole
  have parts : num = n * unit := by exact_mod_cast whole
  exact Nat.le_antisymm (roundQuotient_le positive parts.le) (le_roundQuotient positive parts.ge)

/-- What keeps its distance from `2 ^ 63` is rounded to units of at most 1024 below it. -/
theorem roundQuotient_units_lt {num unit n k : Nat} (positive : 0 < unit)
    (value : (num : ℚ) / unit = n * ((2 : ℚ) ^ k)⁻¹) (fits : roundQuotient num unit ≤ 2 ^ 53)
    (fine : k ≤ 10) (below : n + 1023 ≤ 2 ^ 63) : roundQuotient num unit * 2 ^ k < 2 ^ 63 := by
  rcases Nat.lt_or_ge k 10 with finer | least
  · have steps : 2 ^ k ≤ 2 ^ 9 := Nat.pow_le_pow_right (by decide) (by omega)
    calc roundQuotient num unit * 2 ^ k ≤ 2 ^ 53 * 2 ^ 9 := Nat.mul_le_mul fits steps
      _ < 2 ^ 63 := by decide
  · obtain rfl : k = 10 := by omega
    have parts : num * 2 ^ 10 = n * unit := by
      have nonzero : (unit : ℚ) ≠ 0 := by exact_mod_cast positive.ne'
      rw [← div_eq_mul_inv, div_eq_div_iff nonzero (by norm_num)] at value
      exact_mod_cast value
    have rounded : roundQuotient num unit ≤ 2 ^ 53 - 1 := by
      apply roundQuotient_le_of_lt
      have room := Nat.mul_le_mul_right unit below
      rw [Nat.add_mul, ← parts] at room
      omega
    omega

/-- A whole number that keeps its distance from `2 ^ 63` is rounded to a whole number below it. -/
theorem ofFraction_whole {n den : Nat} (positive : 0 < den) (some_part : 0 < n)
    (below : n + 1023 ≤ 2 ^ 63) :
    ∃ m : Nat, m < 2 ^ 63 ∧ (ofFraction false (n * den) den).toInt? = some (m : Int) := by
  obtain ⟨power, num, unit, low, divisor, value, least, fits, subnormal, same⟩ :=
    ofFraction_pack false (Nat.mul_pos some_part positive) positive
  have quotient : ((n * den : Nat) : ℚ) / den = n := by
    have nonzero : (den : ℚ) ≠ 0 := by exact_mod_cast positive.ne'
    rw [Nat.cast_mul, mul_div_cancel_right₀ _ nonzero]
  rw [quotient] at value least
  have high : power ≤ 10 := by
    by_contra large
    have step : (2 : ℚ) ^ (11 : Int) ≤ 2 ^ power := zpow_le_zpow_right₀ (by norm_num) (by omega)
    rcases least with least | least
    · omega
    · have enormous : (2 : ℚ) ^ 63 ≤ n := by linarith
      have enormous : 2 ^ 63 ≤ n := by exact_mod_cast enormous
      omega
  have ⟨finite, plain⟩ := pack_finite low (show power ≤ 900 by omega) fits
  have stands := magnitude_pack false low (by omega) fits subnormal
  rw [same]
  suffices ∃ m : Nat, m < 2 ^ 63 ∧ (roundQuotient num unit : ℚ) * 2 ^ power = m by
    have ⟨m, small, whole⟩ := this
    exact ⟨m, small, toInt?_of_magnitude finite plain (stands.trans whole)⟩
  rcases Int.le_total power 0 with exact | coarse
  · -- The unit is a fraction, of which there are a whole number in the quotient.
    obtain ⟨k, rfl⟩ : ∃ k : Nat, power = -(k : Int) := ⟨power.natAbs, by omega⟩
    rw [Int.neg_neg, zpow_natCast] at value
    have rounded : roundQuotient num unit = n * 2 ^ k :=
      roundQuotient_whole divisor (by exact_mod_cast value)
    refine ⟨n, by omega, ?_⟩
    rw [rounded, zpow_neg, zpow_natCast, Nat.cast_mul, Nat.cast_pow, Nat.cast_ofNat]
    field_simp
  · obtain ⟨k, rfl⟩ : ∃ k : Nat, power = k := ⟨power.natAbs, by omega⟩
    rw [zpow_neg, zpow_natCast] at value
    refine ⟨roundQuotient num unit * 2 ^ k, ?_, ?_⟩
    · exact roundQuotient_units_lt divisor value fits (by omega) below
    · push_cast
      rw [zpow_natCast]

/-- One more than a whole number below `2 ^ 63`, and not below zero, is another. -/
theorem plus_one_whole {x : Binary64} {n : Nat} (whole : x.toInt? = some (n : Int))
    (below : n < 2 ^ 63) : ∃ m : Nat, m < 2 ^ 63 ∧ (x.plus 1).toInt? = some (m : Int) := by
  have ⟨finite, parts⟩ := toInt?_eq_some_iff.mp whole
  have sum : x.ratio.1 + 1 * x.ratio.2 = ((n + 1) * x.ratio.2 : Nat) := by
    rw [parts]
    push_cast
    ring
  have room := magnitude_bound (magnitude_of_toInt? whole) below
  rw [plus, finite, sum]
  simp only [Bool.not_true, Bool.false_eq_true, if_false, Int.natAbs_natCast]
  rw [decide_eq_false (Int.not_lt.mpr (Int.natCast_nonneg _))]
  exact ofFraction_whole x.ratio_pos (Nat.succ_pos n) (by omega)

end Lifecycle.Decimal.Binary64
