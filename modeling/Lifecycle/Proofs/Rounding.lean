import Lifecycle.Proofs.Shortest
/-!
How far rounding goes: what is at most a whole number below `2 ^ 53` is rounded to at most that
number, and so are its multiples. -/

namespace Lifecycle.Decimal.Binary64

/-- What a finite number stands for, its sign aside. -/
def magnitude (x : Binary64) : ℚ := x.significand * (2 : ℚ) ^ x.scale

theorem scaled_pos (num : Nat) {den : Nat} (positive : 0 < den) (power : Int) :
    0 < (scaled num den power).2 := by
  unfold scaled
  split
  · exact Nat.mul_pos positive (Nat.pow_pos (by decide))
  · exact positive

theorem scaled_value (num den : Nat) (power : Int) :
    ((scaled num den power).1 : ℚ) / (scaled num den power).2 = num / den * (2 : ℚ) ^ power := by
  unfold scaled
  simp only [Nat.pow_eq]
  split
  · next negative =>
      obtain ⟨n, rfl⟩ : ∃ n : Nat, power = -(n : Int) := ⟨power.natAbs, by omega⟩
      rw [zpow_neg, zpow_natCast]
      simp [div_eq_mul_inv, mul_assoc, mul_comm]
  · next positive =>
      obtain ⟨n, rfl⟩ : ∃ n : Nat, power = (n : Int) := ⟨power.natAbs, by omega⟩
      rw [zpow_natCast]
      simp [div_mul_eq_mul_div]

theorem quotient_le_iff {num den n : Nat} (positive : 0 < den) :
    (num : ℚ) / den ≤ n ↔ num ≤ n * den := by
  have positive' : (0 : ℚ) < den := by exact_mod_cast positive
  rw [div_le_iff₀ positive']
  exact_mod_cast Iff.rfl

theorem le_quotient_iff {num den n : Nat} (positive : 0 < den) :
    (n : ℚ) ≤ num / den ↔ n * den ≤ num := by
  have positive' : (0 : ℚ) < den := by exact_mod_cast positive
  rw [le_div_iff₀ positive']
  exact_mod_cast Iff.rfl

theorem fraction_pos (x : Binary64) : 0 < x.fraction.2 := scaled_pos _ Nat.one_pos _

theorem fraction_le_iff (x : Binary64) (n : Nat) :
    x.fraction.1 ≤ n * x.fraction.2 ↔ x.magnitude ≤ n := by
  have value := scaled_value x.significand 1 x.scale
  rw [Nat.cast_one, div_one] at value
  rw [magnitude, ← value]
  exact (quotient_le_iff x.fraction_pos).symm

/-- A quotient that is less than half a unit above a whole number is rounded to at most that number. -/
theorem roundQuotient_le_of_lt {num den n : Nat} (bound : 2 * num < (2 * n + 1) * den) :
    roundQuotient num den ≤ n := by
  have parts := Nat.div_add_mod num den
  have whole : num / den ≤ n := by
    apply Nat.le_of_lt_succ
    apply Nat.div_lt_of_lt_mul
    linarith
  rw [roundQuotient]
  split
  · next up =>
      rcases Nat.lt_or_eq_of_le whole with less | same
      · exact less
      · rw [same] at parts
        have rest : 2 * (num % den) < den := by linarith
        omega
  · exact whole

theorem roundQuotient_le {num den n : Nat} (positive : 0 < den) (bound : num ≤ n * den) :
    roundQuotient num den ≤ n :=
  roundQuotient_le_of_lt (by linarith)

theorem le_roundQuotient {num den n : Nat} (positive : 0 < den) (bound : n * den ≤ num) :
    n ≤ roundQuotient num den := by
  have whole : n ≤ num / den := (Nat.le_div_iff_mul_le positive).mpr bound
  rw [roundQuotient]
  split
  · exact Nat.le_succ_of_le whole
  · exact whole

theorem toNat_make (negative : Bool) {code : Nat} (bound : code < 2 ^ 63) :
    (make negative code).bits.toNat = (if negative then 2 ^ 63 else 0) + code := by
  have inside : (if negative then 2 ^ 63 else 0) + code < 2 ^ 64 := by
    split <;> omega
  exact UInt64.toNat_ofNat_of_lt' inside

/-- An encoding without its sign, taken apart. -/
theorem fields_make (negative : Bool) {field rest : Nat} (small : field < 2 ^ 11)
    (inside : rest < 2 ^ 52) :
    (make negative (field * 2 ^ 52 + rest)).exponentField = field ∧
      (make negative (field * 2 ^ 52 + rest)).fractionField = rest := by
  have code := toNat_make negative (show field * 2 ^ 52 + rest < 2 ^ 63 by omega)
  rw [exponentField, fractionField, code]
  simp only [Nat.pow_eq]
  cases negative
  · simp only [Bool.false_eq_true, if_false]
    omega
  · simp only [if_true]
    omega

theorem magnitude_subnormal (negative : Bool) {whole : Nat} (bound : whole < 2 ^ 52) :
    (make negative whole).magnitude = whole * (2 : ℚ) ^ (-1074 : Int) := by
  obtain ⟨field, rest⟩ := fields_make negative (show 0 < 2 ^ 11 by decide) bound
  rw [Nat.zero_mul, Nat.zero_add] at field rest
  rw [magnitude, significand, scale, field, rest]
  rfl

/-- A significand that was rounded up to the next power of two moves on to the next exponent. -/
theorem magnitude_normal (negative : Bool) {whole field : Nat} (low : 2 ^ 52 ≤ whole)
    (high : whole ≤ 2 ^ 53) (normal : 0 < field) (small : field < 2046) :
    (make negative (field * 2 ^ 52 + (whole - 2 ^ 52))).magnitude =
      whole * (2 : ℚ) ^ ((field : Int) - 1075) := by
  rcases Nat.lt_or_eq_of_le high with inside | rfl
  · obtain ⟨exponent, rest⟩ := fields_make negative (show field < 2 ^ 11 by omega)
      (show whole - 2 ^ 52 < 2 ^ 52 by omega)
    have split : 2 ^ 52 + (whole - 2 ^ 52) = whole := by omega
    rw [magnitude, significand, scale, exponent, rest, if_neg (by omega), if_neg (by omega),
      Nat.pow_eq, split]
  · obtain ⟨exponent, rest⟩ := fields_make negative (show field + 1 < 2 ^ 11 by omega)
      (show 0 < 2 ^ 52 by decide)
    have same : field * 2 ^ 52 + (2 ^ 53 - 2 ^ 52) = (field + 1) * 2 ^ 52 + 0 := by omega
    rw [same, magnitude, significand, scale, exponent, rest, if_neg (by omega),
      if_neg (by omega)]
    have next : ((field + 1 : Nat) : Int) - 1075 = (field : Int) - 1075 + 1 := by omega
    rw [next, zpow_add_one₀ (by norm_num), Nat.pow_eq]
    push_cast
    ring

/-- The encoding of a whole number of halves, quarters, … that are `power` of them to the one. -/
def pack (negative : Bool) (power : Int) (whole : Nat) : Binary64 :=
  if whole < Nat.pow 2 52 then make negative whole
  else
    let code := (power + 1075).toNat * Nat.pow 2 52 + (whole - Nat.pow 2 52)
    if code < 2047 * Nat.pow 2 52 then make negative code else infinity negative

theorem magnitude_pack (negative : Bool) {power : Int} {whole : Nat} (low : -1074 ≤ power)
    (high : power ≤ 900) (bound : whole ≤ 2 ^ 53) (least : whole < 2 ^ 52 → power = -1074) :
    (pack negative power whole).magnitude = whole * (2 : ℚ) ^ power := by
  rw [pack]
  simp only [Nat.pow_eq]
  split
  · next small => rw [magnitude_subnormal negative small, least small]
  · next large =>
      have field : ((power + 1075).toNat : Int) - 1075 = power := by omega
      rw [if_pos (by omega), magnitude_normal negative (by omega) bound (by omega) (by omega), field]

/-- The leading bits of a quotient are those of its parts, or one less. -/
theorem quotient_log_bounds {num den : Nat} (some_part : 0 < num) (positive : 0 < den) :
    2 ^ 52 * (2 : ℚ) ^ ((num.log2 : Int) - den.log2 - 53) ≤ num / den ∧
      (num : ℚ) / den < 2 ^ 54 * (2 : ℚ) ^ ((num.log2 : Int) - den.log2 - 53) := by
  have den' : (0 : ℚ) < den := by exact_mod_cast positive
  have numLow : (2 : ℚ) ^ num.log2 ≤ num := by
    exact_mod_cast Nat.log2_self_le (Nat.ne_of_gt some_part)
  have numHigh : (num : ℚ) < 2 ^ num.log2 * 2 := by
    exact_mod_cast Nat.lt_log2_self
  have denLow : (2 : ℚ) ^ den.log2 ≤ den := by
    exact_mod_cast Nat.log2_self_le (Nat.ne_of_gt positive)
  have denHigh : (den : ℚ) < 2 ^ den.log2 * 2 := by
    exact_mod_cast Nat.lt_log2_self
  have power : (0 : ℚ) < 2 ^ den.log2 := by positivity
  have unit : (2 : ℚ) ^ ((num.log2 : Int) - den.log2 - 53) =
      2 ^ num.log2 / (2 ^ den.log2 * 2 ^ 53) := by
    rw [zpow_sub₀ (by norm_num), zpow_sub₀ (by norm_num), zpow_natCast, zpow_natCast, div_div]
    rfl
  rw [unit]
  constructor
  · calc 2 ^ 52 * (2 ^ num.log2 / (2 ^ den.log2 * 2 ^ 53))
        = (2 : ℚ) ^ num.log2 / (2 ^ den.log2 * 2) := by
          field_simp
      _ ≤ num / (2 ^ den.log2 * 2) := by gcongr
      _ ≤ num / den := by gcongr
  · calc (num : ℚ) / den ≤ num / 2 ^ den.log2 := by gcongr
      _ < 2 ^ num.log2 * 2 / 2 ^ den.log2 := by gcongr
      _ = 2 ^ 54 * (2 ^ num.log2 / (2 ^ den.log2 * 2 ^ 53)) := by
          field_simp

/-- Rounding chooses its unit so that the number has 53 bits, unless units cannot be small enough. -/
theorem ofFraction_eq (negative : Bool) {num den : Nat} (some_part : 0 < num) (positive : 0 < den) :
    ∃ power : Int, -1074 ≤ power ∧ (num : ℚ) / den < 2 ^ 53 * (2 : ℚ) ^ power ∧
      (power = -1074 ∨ 2 ^ 52 * (2 : ℚ) ^ power ≤ num / den) ∧
      ofFraction negative num den = pack negative power
        (roundQuotient (scaled num den (-power)).1 (scaled num den (-power)).2) := by
  obtain ⟨below, above⟩ := quotient_log_bounds some_part positive
  have probe (low : Int) : (scaled num den (-low)).1 / (scaled num den (-low)).2 < 2 ^ 53 ↔
      (num : ℚ) / den < 2 ^ 53 * (2 : ℚ) ^ low := by
    have divisor := scaled_pos num positive (-low)
    have divisor' : (0 : ℚ) < (scaled num den (-low)).2 := by exact_mod_cast divisor
    have value := scaled_value num den (-low)
    rw [zpow_neg, ← div_eq_mul_inv] at value
    rw [Nat.div_lt_iff_lt_mul divisor, ← div_lt_iff₀ (by positivity), ← value,
      div_lt_iff₀ divisor']
    exact_mod_cast Iff.rfl
  have chosen : ∃ low : Int, max ((num.log2 : Int) - den.log2 - 53) (-1074) = low ∧
      -1074 ≤ low ∧ (low = -1074 ∨ 2 ^ 52 * (2 : ℚ) ^ low ≤ num / den) ∧
      (num : ℚ) / den < 2 ^ 54 * (2 : ℚ) ^ low := by
    rcases Int.le_total (-1074) ((num.log2 : Int) - den.log2 - 53) with usual | tiny
    · exact ⟨_, max_eq_left usual, usual, .inr below, above⟩
    · have grows : (2 : ℚ) ^ ((num.log2 : Int) - den.log2 - 53) ≤ 2 ^ (-1074 : Int) :=
        zpow_le_zpow_right₀ (by norm_num) tiny
      exact ⟨_, max_eq_right tiny, Int.le_refl _, .inl rfl, by linarith⟩
  obtain ⟨low, same, least, begins, ends⟩ := chosen
  rw [ofFraction, if_neg (Nat.ne_of_gt some_part), same]
  simp only [Nat.pow_eq]
  split
  · next fits => exact ⟨low, least, (probe low).mp fits, begins, rfl⟩
  · next wide =>
      rw [probe, not_lt] at wide
      have next : (2 : ℚ) ^ (low + 1) = 2 ^ low * 2 := zpow_add_one₀ (by norm_num) low
      refine ⟨low + 1, by omega, ?_, .inr ?_, rfl⟩
      · linarith
      · linarith

/-- What is rounded is a quotient of units, to a number of them that can be encoded. -/
theorem ofFraction_pack (negative : Bool) {num den : Nat} (some_part : 0 < num) (positive : 0 < den) :
    ∃ (power : Int) (num' den' : Nat), -1074 ≤ power ∧ 0 < den' ∧
      (num' : ℚ) / den' = num / den * (2 : ℚ) ^ (-power) ∧
      (power = -1074 ∨ 2 ^ 52 * (2 : ℚ) ^ power ≤ num / den) ∧
      roundQuotient num' den' ≤ 2 ^ 53 ∧ (roundQuotient num' den' < 2 ^ 52 → power = -1074) ∧
      ofFraction negative num den = pack negative power (roundQuotient num' den') := by
  obtain ⟨power, low, high, least, same⟩ := ofFraction_eq negative some_part positive
  have unit : (0 : ℚ) < 2 ^ power := by positivity
  have divisor := scaled_pos num positive (-power)
  have value := scaled_value num den (-power)
  have units : ((scaled num den (-power)).1 : ℚ) / (scaled num den (-power)).2 =
      num / den / 2 ^ power := by
    rw [value, zpow_neg, ← div_eq_mul_inv]
  refine ⟨power, _, _, low, divisor, value, least, ?_, ?_, same⟩
  · apply roundQuotient_le divisor
    rw [← quotient_le_iff divisor, units, div_le_iff₀ unit]
    exact_mod_cast high.le
  · intro small
    rcases least with least | least
    · exact least
    · have large : 2 ^ 52 ≤ roundQuotient (scaled num den (-power)).1 (scaled num den (-power)).2 := by
        apply le_roundQuotient divisor
        rw [← le_quotient_iff divisor, units, le_div_iff₀ unit]
        exact_mod_cast least
      omega

/-- What is at most a whole number of 53 bits is rounded to at most that number. -/
theorem ofFraction_le (negative : Bool) {num den n : Nat} (positive : 0 < den)
    (exact : n < 2 ^ 53) (bound : num ≤ n * den) :
    (ofFraction negative num den).fraction.1 ≤ n * (ofFraction negative num den).fraction.2 := by
  rw [fraction_le_iff]
  rcases Nat.eq_zero_or_pos num with rfl | some_part
  · rw [ofFraction, if_pos rfl, magnitude_subnormal negative (by decide)]
    simp
  have quotient : (num : ℚ) / den ≤ n := (quotient_le_iff positive).mpr bound
  have exact' : (n : ℚ) < 2 ^ 53 := by exact_mod_cast exact
  obtain ⟨power, num', den', low, divisor, value, least, fits, subnormal, same⟩ :=
    ofFraction_pack negative some_part positive
  have units : power ≤ 0 := by
    by_contra large
    have double : (2 : ℚ) ^ (1 : Int) ≤ 2 ^ power := zpow_le_zpow_right₀ (by norm_num) (by omega)
    rcases least with least | least
    · omega
    · linarith
  obtain ⟨k, rfl⟩ : ∃ k : Nat, power = -(k : Int) := ⟨power.natAbs, by omega⟩
  have unit : (0 : ℚ) < 2 ^ k := by positivity
  rw [Int.neg_neg, zpow_natCast] at value
  have limited : roundQuotient num' den' ≤ n * 2 ^ k := by
    apply roundQuotient_le divisor
    rw [← quotient_le_iff divisor, value]
    push_cast
    exact mul_le_mul_of_nonneg_right quotient unit.le
  rw [same, magnitude_pack negative low (by omega) fits subnormal, zpow_neg, zpow_natCast,
    ← div_eq_mul_inv, div_le_iff₀ unit]
  exact_mod_cast limited

/-- A number that is at most so many times one is at most so many times as many in its multiples. -/
theorem times_le {x : Binary64} {n : Nat} (bound : x.fraction.1 ≤ n * x.fraction.2) {factor : Nat}
    (exact : n * factor < 2 ^ 53) :
    (x.times factor).fraction.1 ≤ n * factor * (x.times factor).fraction.2 := by
  apply ofFraction_le x.negative x.fraction_pos exact
  calc x.fraction.1 * factor ≤ n * x.fraction.2 * factor := Nat.mul_le_mul_right factor bound
    _ = n * factor * x.fraction.2 := by ring

theorem nearest_le {x : Binary64} {n : Nat} (bound : x.fraction.1 ≤ n * x.fraction.2) :
    x.nearest ≤ n := by
  have positive := x.fraction_pos
  have room : 2 * x.fraction.1 + x.fraction.2 < (n + 1) * (2 * x.fraction.2) := by
    calc 2 * x.fraction.1 + x.fraction.2 ≤ 2 * (n * x.fraction.2) + x.fraction.2 := by omega
      _ < 2 * (n * x.fraction.2) + 2 * x.fraction.2 := by omega
      _ = (n + 1) * (2 * x.fraction.2) := by ring
  exact Nat.le_of_lt_succ ((Nat.div_lt_iff_lt_mul (by omega)).mpr room)

theorem ratio_pos (x : Binary64) : 0 < x.ratio.2 := x.fraction_pos

/-- What is left of a number beside the greatest whole one not above it is at most one. -/
theorem floor_rest (x : Binary64) :
    x.floor.2 = ofFraction false (x.ratio.1 % x.ratio.2).toNat x.ratio.2 := by
  have positive : (0 : Int) ≤ x.ratio.2 := Int.natCast_nonneg _
  have rest : x.ratio.1 - x.ratio.1.fdiv x.ratio.2 * x.ratio.2 = x.ratio.1 % x.ratio.2 := by
    rw [Int.fdiv_eq_ediv_of_nonneg _ positive, Int.emod_def, Int.mul_comm]
  rw [floor]
  simp only [rest]

theorem nearest_rest_le (x : Binary64) {factor : Nat} (exact : factor < 2 ^ 53) :
    (x.floor.2.times factor).nearest ≤ factor := by
  have inside : (x.ratio.1 % x.ratio.2).toNat ≤ 1 * x.ratio.2 := by
    have below := Int.emod_lt_of_pos x.ratio.1 (Int.natCast_pos.mpr x.ratio_pos)
    omega
  have rest : x.floor.2.fraction.1 ≤ 1 * x.floor.2.fraction.2 := by
    rw [floor_rest]
    exact ofFraction_le false x.ratio_pos (by decide) inside
  have multiple := times_le rest (show 1 * factor < 2 ^ 53 by omega)
  rw [Nat.one_mul] at multiple
  exact nearest_le multiple

theorem floor_le {x : Binary64} {n : Nat} (bound : x.exceeds n = false) : x.floor.1 ≤ n := by
  have positive : (0 : Int) < x.ratio.2 := Int.natCast_pos.mpr x.ratio_pos
  have whole : x.floor.1 = x.ratio.1 / x.ratio.2 :=
    Int.fdiv_eq_ediv_of_nonneg _ (Int.natCast_nonneg _)
  rw [exceeds, decide_eq_false_iff_not, Nat.not_lt] at bound
  have top : x.ratio.1 ≤ n * x.ratio.2 := by
    have bound' : (x.fraction.1 : Int) ≤ n * x.fraction.2 := by exact_mod_cast bound
    rw [ratio]
    simp only
    split <;> omega
  rw [whole]
  exact Int.le_of_lt_add_one (Int.ediv_lt_of_lt_mul positive (by linarith))

/-- Of numbers as large as this no more is left than half a unit, a quarter, … down to a few 32nds. -/
theorem floor_rest_coarse {x : Binary64} (large : 2 ^ 47 ≤ x.floor.1) :
    ∃ k < 6, ∃ part < 2 ^ k, x.floor.2 = ofFraction false part (2 ^ k) := by
  have positive : (0 : Int) < x.ratio.2 := Int.natCast_pos.mpr x.ratio_pos
  have least : 2 ^ 47 * (x.ratio.2 : Int) ≤ x.ratio.1 := by
    have whole : x.floor.1 = x.ratio.1 / x.ratio.2 :=
      Int.fdiv_eq_ediv_of_nonneg _ (Int.natCast_nonneg _)
    rw [whole] at large
    exact Int.mul_le_of_le_ediv positive large
  have bound := x.significand_lt
  have unsigned : x.ratio.1 = x.fraction.1 := by
    rw [ratio] at least positive ⊢
    simp only at least positive ⊢
    split
    · next negative =>
        rw [if_pos negative] at least
        omega
    · rfl
  have inside : (x.ratio.1 % x.ratio.2).toNat < x.ratio.2 := by
    have below := Int.emod_lt_of_pos x.ratio.1 positive
    omega
  obtain ⟨k, few, divisor⟩ : ∃ k < 6, x.ratio.2 = 2 ^ k := by
    have shape : x.ratio.2 = (scaled x.significand 1 x.scale).2 := rfl
    have top : x.fraction.1 = (scaled x.significand 1 x.scale).1 := rfl
    rw [unsigned, top, shape] at least
    rw [shape]
    rw [scaled] at least ⊢
    split
    · next negative =>
        rw [if_pos negative] at least
        simp only [Nat.pow_eq, Nat.one_mul] at least ⊢
        refine ⟨_, ?_, rfl⟩
        by_contra fine
        have unit : 2 ^ 6 ≤ 2 ^ x.scale.natAbs := Nat.pow_le_pow_right (by decide) (by omega)
        omega
    · exact ⟨0, by decide, rfl⟩
  refine ⟨k, few, (x.ratio.1 % x.ratio.2).toNat, ?_, ?_⟩
  · rwa [divisor] at inside ⊢
  · rw [floor_rest, divisor]

end Lifecycle.Decimal.Binary64
