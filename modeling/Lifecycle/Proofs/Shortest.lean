import Lifecycle.Decimal.Shortest
import Lifecycle.Proofs.Digits
import Mathlib.Algebra.Order.Field.Power
import Mathlib.Algebra.Order.Field.Rat
import Mathlib.Tactic.FieldSimp
import Mathlib.Tactic.Linarith
import Mathlib.Tactic.NormNum
import Mathlib.Tactic.Positivity
import Mathlib.Tactic.Ring
/-!
Seventeen digits always suffice: the search for the fewest digits of a finite number other than zero
ends with a point in the interval of the reals that round to it, and so with digits that are not all
zero. -/

namespace Lifecycle.Decimal

namespace Ratio

def value (a : Ratio) : ℚ := (a.num : ℚ) / a.den

theorem le_iff {a b : Ratio} (left : 0 < a.den) (right : 0 < b.den) :
    a.le b = true ↔ a.value ≤ b.value := by
  have left' : (0 : ℚ) < a.den := by exact_mod_cast left
  have right' : (0 : ℚ) < b.den := by exact_mod_cast right
  rw [le, decide_eq_true_iff, value, value, div_le_div_iff₀ left' right']
  exact_mod_cast Iff.rfl

theorem lt_iff {a b : Ratio} (left : 0 < a.den) (right : 0 < b.den) :
    a.lt b = true ↔ a.value < b.value := by
  have left' : (0 : ℚ) < a.den := by exact_mod_cast left
  have right' : (0 : ℚ) < b.den := by exact_mod_cast right
  rw [lt, decide_eq_true_iff, value, value, div_lt_div_iff₀ left' right']
  exact_mod_cast Iff.rfl

theorem ofDecimal_den_pos (digits : Nat) (power : Int) : 0 < (ofDecimal digits power).den := by
  unfold ofDecimal
  split
  · exact Nat.pow_pos (by decide)
  · exact Nat.one_pos

theorem ofBinary_den_pos (n : Nat) (power : Int) : 0 < (ofBinary n power).den := by
  unfold ofBinary
  split
  · exact Nat.pow_pos (by decide)
  · exact Nat.one_pos

theorem value_ofDecimal (digits : Nat) (power : Int) :
    (ofDecimal digits power).value = digits * (10 : ℚ) ^ power := by
  unfold ofDecimal value
  split
  · next negative =>
      obtain ⟨n, rfl⟩ : ∃ n : Nat, power = -(n : Int) := ⟨power.natAbs, by omega⟩
      rw [zpow_neg, zpow_natCast]
      simp [div_eq_mul_inv]
  · next positive =>
      obtain ⟨n, rfl⟩ : ∃ n : Nat, power = (n : Int) := ⟨power.natAbs, by omega⟩
      rw [zpow_natCast]
      simp

theorem value_ofBinary (n : Nat) (power : Int) :
    (ofBinary n power).value = n * (2 : ℚ) ^ power := by
  unfold ofBinary value
  split
  · next negative =>
      obtain ⟨k, rfl⟩ : ∃ k : Nat, power = -(k : Int) := ⟨power.natAbs, by omega⟩
      rw [zpow_neg, zpow_natCast]
      simp [div_eq_mul_inv]
  · next positive =>
      obtain ⟨k, rfl⟩ : ∃ k : Nat, power = (k : Int) := ⟨power.natAbs, by omega⟩
      rw [zpow_natCast]
      simp

/-- The estimate of a decimal exponent from a binary one, as far as binary exponents go. -/
theorem estimate_up : ∀ k < 1200, 10 ^ (k * 30103 / 100000) ≤ 2 ^ (k + 1) := by
  decide +kernel

theorem estimate_down : ∀ k < 1200, 2 ^ k ≤ 10 ^ ((k * 30103 + 99999) / 100000) := by
  decide +kernel

theorem estimate_le {k : Int} (low : -1200 < k) (high : k < 1200) :
    (10 : ℚ) ^ (k * 30103 / 100000) ≤ (2 : ℚ) ^ (k + 1) := by
  rcases Int.le_total 0 k with positive | negative
  · obtain ⟨n, rfl⟩ := Int.eq_ofNat_of_zero_le positive
    have exponent : (n : Int) * 30103 / 100000 = ((n * 30103 / 100000 : Nat) : Int) := by omega
    have next : (n : Int) + 1 = ((n + 1 : Nat) : Int) := by omega
    rw [exponent, next, zpow_natCast, zpow_natCast]
    exact_mod_cast estimate_up n (by omega)
  · obtain ⟨n, rfl⟩ : ∃ n : Nat, k = -(n : Int) := ⟨k.natAbs, by omega⟩
    have exponent : -(n : Int) * 30103 / 100000 =
        -(((n * 30103 + 99999) / 100000 : Nat) : Int) := by omega
    have bound := estimate_down n (by omega)
    calc (10 : ℚ) ^ (-(n : Int) * 30103 / 100000)
        = ((10 : ℚ) ^ ((n * 30103 + 99999) / 100000))⁻¹ := by
          rw [exponent, zpow_neg, zpow_natCast]
      _ ≤ ((2 : ℚ) ^ n)⁻¹ := by
          apply inv_anti₀ (by positivity)
          exact_mod_cast bound
      _ = (2 : ℚ) ^ (-(n : Int)) := by rw [zpow_neg, zpow_natCast]
      _ ≤ (2 : ℚ) ^ (-(n : Int) + 1) := zpow_le_zpow_right₀ (by norm_num) (by omega)

theorem value_gt_of_log (a : Ratio) (positive : 0 < a.num) (divisor : 0 < a.den) :
    (2 : ℚ) ^ ((a.num.log2 : Int) - a.den.log2 - 1) < a.value := by
  have low : 2 ^ a.num.log2 ≤ a.num := Nat.log2_self_le (by omega)
  have high : a.den < 2 ^ (a.den.log2 + 1) := Nat.lt_log2_self
  have low' : (2 : ℚ) ^ a.num.log2 ≤ a.num := by exact_mod_cast low
  have high' : (a.den : ℚ) < 2 ^ (a.den.log2 + 1) := by exact_mod_cast high
  have divisor' : (0 : ℚ) < a.den := by exact_mod_cast divisor
  have split : (a.num.log2 : Int) - a.den.log2 - 1 =
      (a.num.log2 : Int) - ((a.den.log2 + 1 : Nat) : Int) := by omega
  rw [value, lt_div_iff₀ divisor', split, zpow_sub₀ (by norm_num), zpow_natCast, zpow_natCast]
  calc (2 : ℚ) ^ a.num.log2 / 2 ^ (a.den.log2 + 1) * a.den
      < 2 ^ a.num.log2 / 2 ^ (a.den.log2 + 1) * 2 ^ (a.den.log2 + 1) := by
        apply mul_lt_mul_of_pos_left high'
        positivity
    _ = 2 ^ a.num.log2 := by field_simp
    _ ≤ a.num := low'

/-- The exponent that is found is not above the one of the leading digit. -/
theorem leadingPower_le (a : Ratio) (positive : 0 < a.num) (divisor : 0 < a.den)
    (low : -1200 < (a.num.log2 : Int) - a.den.log2)
    (high : (a.num.log2 : Int) - a.den.log2 < 1200) :
    (10 : ℚ) ^ a.leadingPower ≤ a.value := by
  have compared : ∀ power, (ofDecimal 1 power).le a = true → (10 : ℚ) ^ power ≤ a.value := by
    intro power below
    have bound := (le_iff (ofDecimal_den_pos 1 power) divisor).mp below
    rw [value_ofDecimal] at bound
    simpa using bound
  unfold leadingPower
  simp only
  split_ifs with above there
  · exact compared _ above
  · exact compared _ there
  · have estimate := estimate_le low high
    have real := value_gt_of_log a positive divisor
    generalize (a.num.log2 : Int) - a.den.log2 = k at *
    calc (10 : ℚ) ^ (k * 30103 / 100000 - 1)
        = (10 : ℚ) ^ (k * 30103 / 100000) / 10 := by
          rw [zpow_sub₀ (by norm_num), zpow_one]
      _ ≤ (2 : ℚ) ^ (k + 1) / 10 := by linarith
      _ = (2 : ℚ) ^ (k - 1) * (4 / 10) := by
          rw [zpow_add₀ (by norm_num), zpow_sub₀ (by norm_num), zpow_one]
          ring
      _ ≤ (2 : ℚ) ^ (k - 1) := by
          have pos : (0 : ℚ) < 2 ^ (k - 1) := by positivity
          linarith
      _ ≤ a.value := le_of_lt real

end Ratio

/-- A span whose ends are properly written. -/
structure Span.Proper (s : Span) : Prop where
  low : 0 < s.low.den
  value : 0 < s.value.den
  high : 0 < s.high.den

theorem Span.has_of_between {s : Span} (proper : s.Proper) {a : Ratio} (divisor : 0 < a.den)
    (low : s.low.value < a.value) (high : a.value < s.high.value) : s.has a = true := by
  unfold Span.has
  split
  · rw [Bool.and_eq_true]
    exact ⟨(Ratio.le_iff proper.low divisor).mpr (le_of_lt low),
      (Ratio.le_iff divisor proper.high).mpr (le_of_lt high)⟩
  · rw [Bool.and_eq_true]
    exact ⟨(Ratio.lt_iff proper.low divisor).mpr low, (Ratio.lt_iff divisor proper.high).mpr high⟩

/-- The point of the grid just below the value. -/
def Span.pointBelow (s : Span) (power : Int) : Nat :=
  s.value.num * (Ratio.ofDecimal 1 power).den / (s.value.den * (Ratio.ofDecimal 1 power).num)

theorem Span.pointBelow_bounds {s : Span} (proper : s.Proper) (power : Int) :
    (s.pointBelow power : ℚ) * 10 ^ power ≤ s.value.value ∧
      s.value.value < (s.pointBelow power + 1 : Nat) * (10 : ℚ) ^ power := by
  have written := Ratio.value_ofDecimal 1 power
  have den := Ratio.ofDecimal_den_pos 1 power
  have num : 0 < (Ratio.ofDecimal 1 power).num := by
    unfold Ratio.ofDecimal
    split
    · exact Nat.one_pos
    · exact Nat.mul_pos Nat.one_pos (Nat.pow_pos (by decide))
  unfold Span.pointBelow
  generalize Ratio.ofDecimal 1 power = unit at *
  have value := proper.value
  have bottom : 0 < s.value.den * unit.num := Nat.mul_pos value num
  have lower := Nat.div_mul_le_self (s.value.num * unit.den) (s.value.den * unit.num)
  have upper := Nat.lt_div_mul_add bottom (a := s.value.num * unit.den)
  generalize s.value.num * unit.den / (s.value.den * unit.num) = point at *
  have unitValue : (10 : ℚ) ^ power = unit.num / unit.den := by
    rw [← Ratio.value, written]
    simp
  have value' : (0 : ℚ) < s.value.den := by exact_mod_cast value
  have den' : (0 : ℚ) < unit.den := by exact_mod_cast den
  rw [unitValue, Ratio.value]
  constructor
  · rw [mul_div_assoc', div_le_div_iff₀ den' value']
    have cast : (point : ℚ) * (s.value.den * unit.num) ≤ s.value.num * unit.den := by
      exact_mod_cast lower
    linarith
  · rw [mul_div_assoc', div_lt_div_iff₀ value' den']
    have cast : (s.value.num : ℚ) * unit.den <
        point * (s.value.den * unit.num) + s.value.den * unit.num := by exact_mod_cast upper
    push_cast
    linarith

/-- A grid fine enough has one of its two points next to the value inside the span. -/
theorem Span.pick_ne_none {s : Span} (proper : s.Proper) (power : Int)
    (fine : (10 : ℚ) ^ power ≤ s.value.value)
    (low : s.low.value < s.value.value)
    (room : (10 : ℚ) ^ power < s.high.value - s.value.value ∨
      (10 : ℚ) ^ power < s.high.value - s.low.value ∧
        s.high.value - s.value.value = s.value.value - s.low.value) :
    s.pick? power ≠ none := by
  obtain ⟨below, above⟩ := Span.pointBelow_bounds proper power
  have step : (0 : ℚ) < 10 ^ power := by positivity
  have nonzero : s.pointBelow power ≠ 0 := by
    intro zero
    rw [zero] at above
    simp only [zero_add, Nat.cast_one, one_mul] at above
    linarith
  have found : s.has (.ofDecimal (s.pointBelow power) power) = true ∨
      s.has (.ofDecimal (s.pointBelow power + 1) power) = true := by
    have lowerValue := Ratio.value_ofDecimal (s.pointBelow power) power
    have upperValue := Ratio.value_ofDecimal (s.pointBelow power + 1) power
    have apart : ((s.pointBelow power + 1 : Nat) : ℚ) * 10 ^ power =
        s.pointBelow power * 10 ^ power + 10 ^ power := by
      push_cast
      ring
    have upper (inside : ((s.pointBelow power + 1 : Nat) : ℚ) * 10 ^ power < s.high.value) :
        s.has (.ofDecimal (s.pointBelow power + 1) power) = true := by
      apply Span.has_of_between proper (Ratio.ofDecimal_den_pos _ _)
      · rw [upperValue]
        linarith
      · rw [upperValue]
        exact inside
    rcases room with right | ⟨whole, middle⟩
    · exact Or.inr (upper (by linarith))
    · rcases lt_or_ge s.low.value (s.pointBelow power * 10 ^ power) with inside | outside
      · left
        apply Span.has_of_between proper (Ratio.ofDecimal_den_pos _ _)
        · rw [lowerValue]
          exact inside
        · rw [lowerValue]
          linarith
      · exact Or.inr (upper (by linarith))
  have lowerPoint : s.value.num * (Ratio.ofDecimal 1 power).den /
      (s.value.den * (Ratio.ofDecimal 1 power).num) = s.pointBelow power := rfl
  unfold Span.pick?
  simp only [lowerPoint]
  rcases found with lower | upper
  · simp only [lower, bne_iff_ne.mpr nonzero, Bool.and_true, Bool.true_and]
    split_ifs <;> simp
  · simp only [upper, Bool.and_true]
    split_ifs <;> simp

theorem Span.pick_pos {s : Span} {power : Int} {point : Nat}
    (found : s.pick? power = some point) : 0 < point := by
  have lowerPoint : s.value.num * (Ratio.ofDecimal 1 power).den /
      (s.value.den * (Ratio.ofDecimal 1 power).num) = s.pointBelow power := rfl
  unfold Span.pick? at found
  simp only [lowerPoint] at found
  generalize s.pointBelow power = below at found
  split_ifs at found with both left right even lower upper <;> cases found
  · simp only [Bool.and_eq_true, bne_iff_ne] at both
    omega
  · omega
  · simp only [Bool.and_eq_true, bne_iff_ne] at both
    omega
  · omega
  · simp only [Bool.and_eq_true, bne_iff_ne] at lower
    omega
  · omega

theorem Span.search_pos {s : Span} {leading : Int} (last : s.pick? (leading - 16) ≠ none)
    (tries : Nat) : 0 < (s.search leading (tries + 1)).1 := by
  induction tries with
  | zero =>
      rw [Span.search]
      cases found : s.pick? (leading - (16 - 0 : Nat)) with
      | none => exact absurd found last
      | some point => exact Span.pick_pos found
  | succ tries ih =>
      rw [Span.search]
      cases found : s.pick? (leading - (16 - (tries + 1) : Nat)) with
      | none => exact ih
      | some point => exact Span.pick_pos found

/-- Taking away zeros at the end leaves the digit in front. -/
theorem dropTrailingZeros_pos {point : Nat} (positive : 0 < point) (power : Int) :
    0 < (dropTrailingZeros point power).1 := by
  unfold dropTrailingZeros
  simp only
  obtain ⟨first, rest, written, _⟩ := digits_eq_cons point
  have head := digits_head_ne_zero positive
  rw [written, List.head?_cons, ne_eq, Option.some.injEq] at head
  have short : ((digits point).reverse.takeWhile (· = '0')).length < (digits point).length := by
    rw [written, List.reverse_cons]
    have stops : (rest.reverse ++ [first]).takeWhile (· = '0') = rest.reverse.takeWhile (· = '0') := by
      rw [List.takeWhile_append]
      split
      · next whole =>
          rw [(List.takeWhile_prefix _).eq_of_length whole]
          simp [head]
      · rfl
    have prefix_ := (List.takeWhile_prefix (· = '0') (l := rest.reverse)).length_le
    rw [stops]
    simp only [List.length_reverse, List.length_cons] at prefix_ ⊢
    omega
  generalize ((digits point).reverse.takeWhile (· = '0')).length = zeros at *
  apply Nat.div_pos _ (Nat.pow_pos (by decide))
  rcases Nat.eq_zero_or_pos zeros with rfl | some_zero
  · exact positive
  · by_contra small
    have bound := (digits_length_le_iff point zeros some_zero).mpr (by omega)
    omega

namespace Binary64

theorem exponentField_lt (x : Binary64) : x.exponentField < 2048 :=
  Nat.mod_lt _ (by decide)

theorem fractionField_lt (x : Binary64) : x.fractionField < 2 ^ 52 :=
  Nat.mod_lt _ (by decide)

theorem significand_lt (x : Binary64) : x.significand < 2 ^ 53 := by
  have fraction := x.fractionField_lt
  unfold significand
  rw [Nat.pow_eq]
  split <;> omega

theorem scale_bounds {x : Binary64} (finite : x.isFinite = true) :
    -1074 ≤ x.scale ∧ x.scale ≤ 971 := by
  have bound := x.exponentField_lt
  rw [isFinite, bne_iff_ne] at finite
  unfold scale
  split <;> omega

theorem significand_pos {x : Binary64} (finite : x.isFinite = true) (nonzero : x.isZero = false) :
    0 < x.significand := by
  rw [isZero, finite, Bool.true_and, decide_eq_false_iff_not] at nonzero
  omega

theorem span_proper (x : Binary64) : x.span.Proper :=
  ⟨Ratio.ofBinary_den_pos _ _, Ratio.ofBinary_den_pos _ _, Ratio.ofBinary_den_pos _ _⟩

theorem log2_pow_mul_bounds {n k : Nat} (positive : 0 < n) (bound : n < 2 ^ 55) :
    k ≤ (n * 2 ^ k).log2 ∧ (n * 2 ^ k).log2 < k + 55 := by
  have power : 0 < 2 ^ k := Nat.pow_pos (by decide)
  have nonzero : n * 2 ^ k ≠ 0 := Nat.ne_of_gt (Nat.mul_pos positive power)
  constructor
  · rw [Nat.le_log2 nonzero]
    exact Nat.le_mul_of_pos_left _ positive
  · rw [Nat.log2_lt nonzero, Nat.add_comm k 55, Nat.pow_add]
    exact Nat.mul_lt_mul_of_pos_right bound power

theorem leadingPower_span {x : Binary64} (finite : x.isFinite = true) (nonzero : x.isZero = false) :
    (10 : ℚ) ^ x.span.value.leadingPower ≤ x.span.value.value := by
  have positive := significand_pos finite nonzero
  have bound := x.significand_lt
  obtain ⟨low, high⟩ := scale_bounds finite
  have inside : 4 * x.significand < 2 ^ 55 := by omega
  have shape : x.span.value = .ofBinary (4 * x.significand) (x.scale - 2) := rfl
  rw [shape]
  have divisor := Ratio.ofBinary_den_pos (4 * x.significand) (x.scale - 2)
  unfold Ratio.ofBinary at divisor ⊢
  simp only [Nat.pow_eq] at divisor ⊢
  split
  · next negative =>
      rw [if_pos negative] at divisor
      have bounds := log2_pow_mul_bounds (k := 0) (n := 4 * x.significand) (by omega) inside
      rw [Nat.pow_zero, Nat.mul_one] at bounds
      have below : (2 ^ (x.scale - 2).natAbs).log2 = (x.scale - 2).natAbs := Nat.log2_two_pow
      apply Ratio.leadingPower_le _ (by simp only; omega) divisor <;> simp only [below] <;> omega
  · next positive' =>
      rw [if_neg positive'] at divisor
      have bounds := log2_pow_mul_bounds (k := (x.scale - 2).natAbs) (n := 4 * x.significand)
        (by omega) inside
      have one : Nat.log2 1 = 0 := rfl
      apply Ratio.leadingPower_le _ (Nat.mul_pos (by omega) (Nat.pow_pos (by decide))) divisor <;>
        simp only [one] <;> omega

/-- The next number below is half as far away at a power of two. -/
theorem span_low_value {x : Binary64} (positive : 0 < x.significand) :
    x.span.low.value = if x.fractionField = 0 ∧ x.exponentField > 1
      then (4 * x.significand - 1 : ℚ) * 2 ^ (x.scale - 2)
      else (4 * x.significand - 2 : ℚ) * 2 ^ (x.scale - 2) := by
  rw [span]
  simp only
  split
  · rw [Ratio.value_ofBinary, Nat.cast_sub (by omega)]
    push_cast
    rfl
  · rw [Ratio.value_ofBinary, Nat.cast_sub (by omega)]
    push_cast
    rfl

/-- The grid of seventeen digits is finer than the numbers lie apart. -/
theorem pick_seventeen {x : Binary64} (finite : x.isFinite = true) (nonzero : x.isZero = false) :
    x.span.pick? (x.span.value.leadingPower - 16) ≠ none := by
  have leading := leadingPower_span finite nonzero
  have positive := significand_pos finite nonzero
  have bound : (x.significand : ℚ) < 2 ^ 53 := by exact_mod_cast x.significand_lt
  have least : (1 : ℚ) ≤ x.significand := by exact_mod_cast positive
  have grid : (0 : ℚ) < 2 ^ (x.scale - 2) := by positivity
  have value : x.span.value.value = (4 * x.significand : Nat) * (2 : ℚ) ^ (x.scale - 2) :=
    Ratio.value_ofBinary _ _
  have high : x.span.high.value = (4 * x.significand + 2 : Nat) * (2 : ℚ) ^ (x.scale - 2) :=
    Ratio.value_ofBinary _ _
  have step : (10 : ℚ) ^ (x.span.value.leadingPower - 16) * 10 ^ 16 ≤ x.span.value.value := by
    rw [zpow_sub₀ (by norm_num)]
    calc _ = (10 : ℚ) ^ x.span.value.leadingPower := by
          field_simp
      _ ≤ _ := leading
  have stepPos : (0 : ℚ) < 10 ^ (x.span.value.leadingPower - 16) := by positivity
  have low := span_low_value positive
  push_cast at value high
  by_cases edge : x.fractionField = 0 ∧ x.exponentField > 1
  · have power : x.significand = 2 ^ 52 := by
      rw [significand, if_neg (by omega), edge.1, Nat.add_zero, Nat.pow_eq]
    have power' : (x.significand : ℚ) = 2 ^ 52 := by exact_mod_cast power
    rw [if_pos edge] at low
    apply Span.pick_ne_none x.span_proper
    · linarith
    · rw [low, value]
      linarith
    · left
      rw [value, power'] at step
      rw [high, value, power']
      linarith
  · rw [if_neg edge] at low
    have scaled : (x.significand : ℚ) * 2 ^ (x.scale - 2) < 2 ^ 53 * 2 ^ (x.scale - 2) :=
      mul_lt_mul_of_pos_right bound grid
    apply Span.pick_ne_none x.span_proper
    · linarith
    · rw [low, value]
      linarith
    · right
      constructor
      · rw [high, low]
        rw [value] at step
        linarith
      · rw [high, low, value]
        ring

/-- The digits of a finite number other than zero are not all zero. -/
theorem shortest_pos {x : Binary64} (finite : x.isFinite = true) (nonzero : x.isZero = false) :
    0 < x.shortest.1 := by
  unfold shortest
  exact dropTrailingZeros_pos (Span.search_pos (pick_seventeen finite nonzero) 16) _

end Binary64

end Lifecycle.Decimal
