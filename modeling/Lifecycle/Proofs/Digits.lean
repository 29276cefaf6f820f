import Lifecycle.Decimal.Digits
import Lifecycle.Text.Hex
import Mathlib.Tactic.IntervalCases
/-!
Written numbers read back as what they were: decimal digits with or without zeros in front, and
hexadecimal digits of a fixed width. -/

namespace Lifecycle.Decimal

theorem char_le_iff (c d : Char) : c ≤ d ↔ c.toNat ≤ d.toNat := by
  rw [Char.le_def, UInt32.le_iff_toNat_le]
  rfl

theorem isDigit_iff (c : Char) : IsDigit c ↔ 48 ≤ c.toNat ∧ c.toNat ≤ 57 := by
  unfold IsDigit
  rw [char_le_iff, char_le_iff]
  rfl

theorem toNat_digitChar {d : Nat} (below : d < 10) : (digitChar d).toNat = 48 + d := by
  interval_cases d <;> rfl

theorem isDigit_digitChar {d : Nat} (below : d < 10) : IsDigit (digitChar d) := by
  rw [isDigit_iff, toNat_digitChar below]
  omega

theorem digitChar_eq_zero_iff {d : Nat} (below : d < 10) : digitChar d = '0' ↔ d = 0 := by
  constructor
  · intro same
    have code := toNat_digitChar below
    rw [same] at code
    have zero : '0'.toNat = 48 := rfl
    omega
  · rintro rfl
    rfl

theorem natural_append_singleton (front : List Char) (c : Char) :
    natural (front ++ [c]) = natural front * 10 + (c.toNat - 48) := by
  unfold natural
  rw [List.foldl_append]
  rfl

theorem natural_digits (n : Nat) : natural (digits n) = n := by
  induction n using digits.induct with
  | case1 n small =>
      rw [digits, if_pos small]
      have code := toNat_digitChar small
      simp only [natural, List.foldl_cons, List.foldl_nil]
      rw [code]
      have zero : '0'.toNat = 48 := rfl
      omega
  | case2 n large ih =>
      have last : n % 10 < 10 := Nat.mod_lt n (by decide)
      rw [digits, if_neg large, natural_append_singleton, ih, toNat_digitChar last]
      omega

theorem isDigit_of_mem_digits (n : Nat) : ∀ c ∈ digits n, IsDigit c := by
  induction n using digits.induct with
  | case1 n small =>
      intro c member
      rw [digits, if_pos small, List.mem_singleton] at member
      subst member
      exact isDigit_digitChar small
  | case2 n large ih =>
      intro c member
      rw [digits, if_neg large, List.mem_append, List.mem_singleton] at member
      rcases member with front | last
      · exact ih c front
      · subst last
        exact isDigit_digitChar (Nat.mod_lt n (by decide))

theorem digits_ne_nil (n : Nat) : digits n ≠ [] := by
  rw [digits]
  split <;> simp

theorem digits_eq_cons (n : Nat) : ∃ first rest, digits n = first :: rest ∧ IsDigit first := by
  cases written : digits n with
  | nil => exact absurd written (digits_ne_nil n)
  | cons first rest =>
      refine ⟨first, rest, rfl, ?_⟩
      apply isDigit_of_mem_digits n
      rw [written]
      exact List.mem_cons_self

/-- Only zero itself is written with a zero in front. -/
theorem digits_head_ne_zero {n : Nat} (positive : 0 < n) : (digits n).head? ≠ some '0' := by
  induction n using digits.induct with
  | case1 n small =>
      rw [digits, if_pos small]
      intro same
      have zero := (digitChar_eq_zero_iff small).mp (Option.some.inj same)
      omega
  | case2 n large ih =>
      rw [digits, if_neg large]
      obtain ⟨first, rest, written, _⟩ := digits_eq_cons (n / 10)
      have inner := ih (by omega)
      rw [written] at inner ⊢
      exact inner

theorem digits_zero : digits 0 = ['0'] := by
  rw [digits]
  rfl

theorem digits_length_le_iff (n k : Nat) (some_digit : 0 < k) :
    (digits n).length ≤ k ↔ n < 10 ^ k := by
  induction n using digits.induct generalizing k with
  | case1 n small =>
      rw [digits, if_pos small]
      have room : 10 ^ 1 ≤ 10 ^ k := Nat.pow_le_pow_right (by decide) some_digit
      constructor
      · intro _
        omega
      · intro _
        exact some_digit
  | case2 n large ih =>
      rw [digits, if_neg large, List.length_append, List.length_singleton]
      cases k with
      | zero => omega
      | succ k =>
          rcases Nat.eq_zero_or_pos k with rfl | more
          · have inner := List.length_pos_iff.mpr (digits_ne_nil (n / 10))
            constructor
            · intro short
              omega
            · intro short
              omega
          · have inner := ih k more
            have step : n / 10 < 10 ^ k ↔ n < 10 ^ (k + 1) := by
              rw [Nat.pow_succ, Nat.div_lt_iff_lt_mul (by decide)]
            constructor
            · intro short
              exact step.mp (inner.mp (by omega))
            · intro short
              have bound := inner.mpr (step.mpr short)
              omega

theorem digits_length_le {n k : Nat} (some_digit : 0 < k) (bound : n < Nat.pow 10 k) :
    (digits n).length ≤ k :=
  (digits_length_le_iff n k some_digit).mpr bound

theorem isDigit_zero : IsDigit '0' := ⟨by decide, by decide⟩

theorem natural_replicate_zero (count : Nat) (text : List Char) :
    natural (List.replicate count '0' ++ text) = natural text := by
  induction count with
  | zero => rfl
  | succ count ih =>
      rw [List.replicate_succ, List.cons_append, ← ih]
      rfl

theorem natural_padded (width n : Nat) : natural (padded width n) = n := by
  unfold padded
  rw [natural_replicate_zero, natural_digits]

theorem isDigit_of_mem_padded (width n : Nat) : ∀ c ∈ padded width n, IsDigit c := by
  intro c member
  rcases List.mem_append.mp member with zero | digit
  · rw [List.eq_of_mem_replicate zero]
    exact isDigit_zero
  · exact isDigit_of_mem_digits n c digit

theorem padded_length (width n : Nat) (some_digit : 0 < width) (bound : n < 10 ^ width) :
    (padded width n).length = width := by
  have short := (digits_length_le_iff n width some_digit).mpr bound
  simp only [padded, List.length_append, List.length_replicate]
  omega

end Lifecycle.Decimal

namespace Lifecycle.Text

theorem hexValue_hexDigit {d : Nat} (below : d < 16) : hexValue? (hexDigit d) = some d := by
  interval_cases d <;> rfl

theorem hexNumber_eq_foldl (written : List Char) :
    hexNumber? written =
      written.foldl (fun sum c => do return (← sum) * 16 + (← hexValue? c)) (some 0) := by
  cases written with
  | nil => rfl
  | cons first rest => rfl

theorem hexNumber_append_singleton {front : List Char} {sum d : Nat} {c : Char}
    (found : hexNumber? front = some sum) (value : hexValue? c = some d) :
    hexNumber? (front ++ [c]) = some (sum * 16 + d) := by
  rw [hexNumber_eq_foldl] at found ⊢
  rw [List.foldl_append, found]
  simp [value]

theorem hexNumber_hex (width n : Nat) : hexNumber? (hex width n) = some (n % 16 ^ width) := by
  induction width generalizing n with
  | zero => simp [hex, hexNumber?, Nat.mod_one]
  | succ width ih =>
      have last : n % 16 < 16 := Nat.mod_lt n (by decide)
      rw [hex, hexNumber_append_singleton (ih (n / 16)) (hexValue_hexDigit last)]
      congr 1
      rw [Nat.pow_succ, Nat.mul_comm (16 ^ width) 16, Nat.mod_mul]
      omega

theorem hex_length (width n : Nat) : (hex width n).length = width := by
  induction width generalizing n with
  | zero => rfl
  | succ width ih => rw [hex, List.length_append, ih, List.length_singleton]

end Lifecycle.Text
