import Lifecycle.Json.Printer
import Lifecycle.Json.Reader
import Lifecycle.Proofs.Shortest
/-!
Numbers in JSON text. A whole number within the limit reads back as itself, and a finite real as some
real, wherever what follows cannot belong to a number. -/

namespace Lifecycle.Json

open Decimal

/-- What does not go on with a digit. -/
def NoDigit (text : List Char) : Prop := ∀ c ∈ text.head?, ¬IsDigit c

/-- What does not go on with anything that can belong to a number. -/
def Delimited (text : List Char) : Prop :=
  ∀ c ∈ text.head?, ¬IsDigit c ∧ c ≠ '.' ∧ c ≠ 'e' ∧ c ≠ 'E'

theorem Delimited.noDigit {text : List Char} (ends : Delimited text) : NoDigit text :=
  fun c first => (ends c first).1

theorem noDigit_cons {c : Char} (other : ¬IsDigit c) (rest : List Char) : NoDigit (c :: rest) := by
  intro d first
  cases first
  exact other

theorem takeDigits_append {written rest : List Char} (all : ∀ c ∈ written, IsDigit c)
    (stops : NoDigit rest) : takeDigits (written ++ rest) = (written, rest) := by
  have passes : ∀ c ∈ written, decide (IsDigit c) = true := fun c member =>
    decide_eq_true (all c member)
  unfold takeDigits
  rw [List.span_eq_takeWhile_dropWhile, List.takeWhile_append_of_pos passes,
    List.dropWhile_append_of_pos passes]
  cases rest with
  | nil => simp
  | cons c rest =>
      have other : decide (IsDigit c) = false := decide_eq_false (stops c rfl)
      simp [other]

/-- A whole part: digits of which the first is no zero unless it stands alone. -/
structure Whole (written : List Char) : Prop where
  digits : ∀ c ∈ written, IsDigit c
  filled : written ≠ []
  plain : written.head? = some '0' → written = ['0']

theorem whole_digits (n : Nat) : Whole (digits n) where
  digits := isDigit_of_mem_digits n
  filled := digits_ne_nil n
  plain := by
    intro zero
    rcases Nat.eq_zero_or_pos n with rfl | positive
    · exact digits_zero
    · exact absurd zero (digits_head_ne_zero positive)

theorem whole_zero : Whole ['0'] := digits_zero ▸ whole_digits 0

theorem takeWhole_append {written rest : List Char} (whole : Whole written)
    (stops : NoDigit rest) : takeWhole (written ++ rest) = some (written, rest) := by
  obtain ⟨all, filled, plain⟩ := whole
  cases written with
  | nil => exact absurd rfl filled
  | cons first more =>
      by_cases zero : first = '0'
      · have alone := plain (congrArg some zero)
        rw [alone]
        rfl
      · have taken := takeDigits_append all stops
        rw [List.cons_append] at taken ⊢
        rw [takeWhole]
        · rw [taken]
        · rintro _ same
          cases same
          exact zero rfl

theorem takeFraction_none {rest : List Char} (ends : ∀ c ∈ rest.head?, c ≠ '.') :
    takeFraction rest = (none, rest) := by
  cases rest with
  | nil => rfl
  | cons c rest =>
      rw [takeFraction]
      rintro _ same
      cases same
      exact ends '.' rfl rfl

theorem takeFraction_append {places rest : List Char} (all : ∀ c ∈ places, IsDigit c)
    (filled : places ≠ []) (stops : NoDigit rest) :
    takeFraction ('.' :: places ++ rest) = (some places, rest) := by
  rw [List.cons_append, takeFraction, takeDigits_append all stops]
  cases places with
  | nil => exact absurd rfl filled
  | cons first more => rfl

theorem takeExponent_none {rest : List Char} (ends : Delimited rest) :
    takeExponent rest = (none, rest) := by
  cases rest with
  | nil => rfl
  | cons c rest =>
      obtain ⟨_, _, small, large⟩ := ends c rfl
      have other : ¬(c = 'e' ∨ c = 'E') := by
        rintro (same | same)
        · exact small same
        · exact large same
      unfold takeExponent
      simp only
      rw [if_neg other]

theorem takeExponent_append {sign : Char} {written : List Char} (signed : sign = '-' ∨ sign = '+')
    (all : ∀ c ∈ written, IsDigit c) (filled : written ≠ []) :
    ∃ power, ∀ rest, NoDigit rest →
      takeExponent ('e' :: sign :: written ++ rest) = (some power, rest) := by
  cases written with
  | nil => exact absurd rfl filled
  | cons first more =>
      rcases signed with rfl | rfl
      · refine ⟨-(natural (first :: more) : Int), fun rest stops => ?_⟩
        have taken := takeDigits_append all stops
        unfold takeExponent
        simp only [List.cons_append] at taken ⊢
        simp only [true_or, if_true, taken]
      · refine ⟨(natural (first :: more) : Int), fun rest stops => ?_⟩
        have taken := takeDigits_append all stops
        unfold takeExponent
        simp only [List.cons_append] at taken ⊢
        simp only [true_or, if_true, taken]
        rfl

/-- A sign in front, if a number has one. -/
def signed (negative : Bool) (body : List Char) : List Char :=
  if negative then '-' :: body else body

/-- A number from its parts, before a text that goes on. -/
def assembled (negative : Bool) (whole : List Char) (fraction : Option (List Char))
    (power : Option Int) (rest : List Char) : Scan Value :=
  match fraction, power with
  | none, none =>
    if digitLimit < whole.length then .error (.excess (.digits whole.length))
    else .ok (.integer (if negative then -(natural whole : Int) else natural whole), rest)
  | _, _ =>
    .ok (.real (.ofDecimal negative (natural (whole ++ fraction.getD []))
      (power.getD 0 - (fraction.getD []).length)), rest)

/-- The parts of a number are taken off in turn. -/
theorem number_of_parts {negative : Bool} {first : Char}
    {body whole afterWhole behind rest : List Char} {fraction : Option (List Char)}
    {power : Option Int} (digit : IsDigit first)
    (taken : takeWhole (first :: body) = some (whole, afterWhole))
    (places : takeFraction afterWhole = (fraction, behind))
    (exponent : takeExponent behind = (power, rest)) :
    number? (signed negative (first :: body)) =
      some (assembled negative whole fraction power rest) := by
  cases negative with
  | true =>
      rw [signed, if_pos rfl, number?]
      simp only [taken, places, exponent, assembled]
      cases fraction <;> cases power <;> simp only [apply_ite some]
  | false =>
      rw [signed, if_neg Bool.false_ne_true, number?]
      · simp only [taken, places, exponent, assembled]
        cases fraction <;> cases power <;> simp only [apply_ite some]
      · rintro _ same
        cases same
        exact absurd digit (by decide)

theorem integer_signed (n : Int) : integer n = signed (decide (n < 0)) (digits n.natAbs) := by
  cases n with
  | ofNat n =>
      have positive : ¬Int.ofNat n < 0 := Int.not_lt.mpr (Int.natCast_nonneg n)
      rw [decide_eq_false positive]
      rfl
  | negSucc n =>
      rw [decide_eq_true (Int.negSucc_lt_zero n)]
      rfl

/-- A text that begins as numbers do: with a digit, perhaps behind a sign. -/
def BeginsNumber (text : List Char) : Prop :=
  ∃ negative first more, text = signed negative (first :: more) ∧ IsDigit first

theorem begins_integer (n : Int) (rest : List Char) : BeginsNumber (integer n ++ rest) := by
  obtain ⟨first, more, shape, digit⟩ := digits_eq_cons n.natAbs
  refine ⟨decide (n < 0), first, more ++ rest, ?_, digit⟩
  rw [integer_signed, shape]
  cases decide (n < 0) <;> rfl

theorem signed_append (negative : Bool) (body rest : List Char) :
    signed negative body ++ rest = signed negative (body ++ rest) := by
  cases negative <;> rfl

/-- A whole number reads back as itself. -/
theorem number_integer {n : Int} (bound : n.natAbs < Nat.pow 10 digitLimit) {rest : List Char}
    (ends : Delimited rest) :
    number? (integer n ++ rest) = some (.ok (.integer n, rest)) := by
  obtain ⟨first, more, shape, digit⟩ := digits_eq_cons n.natAbs
  have whole := takeWhole_append (whole_digits n.natAbs) ends.noDigit
  have fraction := takeFraction_none (fun c first => (ends c first).2.1)
  have exponent := takeExponent_none ends
  have short : ¬digitLimit < (digits n.natAbs).length :=
    Nat.not_lt.mpr (digits_length_le (by decide) bound)
  rw [integer_signed, signed_append]
  rw [shape, List.cons_append] at whole ⊢
  rw [number_of_parts digit whole fraction exponent]
  rw [← shape, assembled]
  simp only [natural_digits]
  rw [if_neg short]
  congr 4
  by_cases negative : n < 0
  · rw [decide_eq_true negative, if_pos rfl]
    omega
  · rw [decide_eq_false negative, if_neg Bool.false_ne_true]
    omega

/-- A magnitude that is written so that a real can be read from it, whatever its sign. -/
structure Readable (body : List Char) : Prop where
  begins : ∃ first more, body = first :: more ∧ IsDigit first
  reads : ∀ negative, ∃ y, ∀ rest, Delimited rest →
    number? (signed negative (body ++ rest)) = some (.ok (.real y, rest))

/-- A number with a fraction or an exponent is read as some real. -/
theorem readable_of_parts {whole behind : List Char} (fraction : Option (List Char))
    (power : Option Int) (front : Whole whole)
    (parts : ∀ rest, Delimited rest → NoDigit (behind ++ rest) ∧
      ∃ tail, takeFraction (behind ++ rest) = (fraction, tail) ∧ takeExponent tail = (power, rest))
    (either : fraction ≠ none ∨ power ≠ none) : Readable (whole ++ behind) := by
  cases whole with
  | nil => exact absurd rfl front.filled
  | cons first more =>
      have digit := front.digits first List.mem_cons_self
      refine ⟨⟨first, more ++ behind, rfl, digit⟩, fun negative => ?_⟩
      refine ⟨.ofDecimal negative (natural (first :: more ++ fraction.getD []))
        (power.getD 0 - (fraction.getD []).length), fun rest ends => ?_⟩
      obtain ⟨stops, tail, places, exponent⟩ := parts rest ends
      have taken := takeWhole_append front stops
      rw [List.append_assoc]
      rw [List.cons_append] at taken ⊢
      rw [number_of_parts digit taken places exponent]
      cases fraction with
      | some places => rfl
      | none =>
          cases power with
          | some power => rfl
          | none => simp at either

theorem whole_of_nonzero {written : List Char} (all : ∀ c ∈ written, IsDigit c)
    (filled : written ≠ []) (nonzero : written.head? ≠ some '0') : Whole written :=
  ⟨all, filled, fun zero => absurd zero nonzero⟩

theorem not_digit_point : ¬IsDigit '.' := by decide

theorem not_digit_exponent : ¬IsDigit 'e' := by decide

theorem readable_fraction (whole places : List Char) (front : Whole whole)
    (all : ∀ c ∈ places, IsDigit c) (filled : places ≠ []) :
    Readable (whole ++ '.' :: places) := by
  apply readable_of_parts (some places) none front
  · intro rest ends
    exact ⟨noDigit_cons not_digit_point _, rest, takeFraction_append all filled ends.noDigit,
      takeExponent_none ends⟩
  · exact Or.inl (Option.some_ne_none places)

theorem readable_exponent {whole written : List Char} {sign : Char} (front : Whole whole)
    (either : sign = '-' ∨ sign = '+') (all : ∀ c ∈ written, IsDigit c) (filled : written ≠ []) :
    Readable (whole ++ 'e' :: sign :: written) := by
  obtain ⟨power, exponent⟩ := takeExponent_append either all filled
  apply readable_of_parts none (some power) front
  · intro rest ends
    refine ⟨noDigit_cons not_digit_exponent _, _, takeFraction_none ?_, exponent rest ends.noDigit⟩
    rintro c first same
    cases first
    exact absurd same (by decide)
  · exact Or.inr (Option.some_ne_none power)

theorem readable_fraction_exponent {whole places written : List Char} {sign : Char}
    (front : Whole whole) (placed : ∀ c ∈ places, IsDigit c) (present : places ≠ [])
    (either : sign = '-' ∨ sign = '+') (all : ∀ c ∈ written, IsDigit c) (filled : written ≠ []) :
    Readable (whole ++ ('.' :: places ++ 'e' :: sign :: written)) := by
  obtain ⟨power, exponent⟩ := takeExponent_append either all filled
  apply readable_of_parts (some places) (some power) front
  · intro rest ends
    refine ⟨noDigit_cons not_digit_point _, 'e' :: sign :: written ++ rest, ?_,
      exponent rest ends.noDigit⟩
    rw [List.append_assoc]
    exact takeFraction_append placed present (noDigit_cons not_digit_exponent _)
  · exact Or.inr (Option.some_ne_none power)

theorem isDigit_of_mem_replicate (count : Nat) : ∀ c ∈ List.replicate count '0', IsDigit c := by
  intro c member
  rw [List.eq_of_mem_replicate member]
  exact isDigit_zero

theorem readable_positional {written : List Char} (all : ∀ c ∈ written, IsDigit c)
    (filled : written ≠ []) (nonzero : written.head? ≠ some '0') (point : Int) :
    Readable (positional written point) := by
  have zeros := isDigit_of_mem_replicate
  unfold positional
  split_ifs with small long
  · have front : '0' :: '.' :: List.replicate point.natAbs '0' ++ written =
        ['0'] ++ '.' :: (List.replicate point.natAbs '0' ++ written) := rfl
    rw [front]
    apply readable_fraction _ _ whole_zero
    · intro c member
      rcases List.mem_append.mp member with zero | digit
      · exact zeros _ c zero
      · exact all c digit
    · exact List.append_ne_nil_of_right_ne_nil _ filled
  · apply readable_fraction
    · apply whole_of_nonzero
      · intro c member
        rcases List.mem_append.mp member with digit | zero
        · exact all c digit
        · exact zeros _ c zero
      · exact List.append_ne_nil_of_left_ne_nil filled _
      · rw [List.head?_append_of_ne_nil _ filled]
        exact nonzero
    · intro c member
      rw [List.mem_singleton.mp member]
      exact isDigit_zero
    · exact List.cons_ne_nil _ _
  · have inside : point.toNat < written.length := by omega
    have some_digit : 0 < point.toNat := by omega
    apply readable_fraction
    · apply whole_of_nonzero
      · exact fun c member => all c (List.mem_of_mem_take member)
      · intro empty
        rcases List.take_eq_nil_iff.mp empty with none | nothing
        · omega
        · exact filled nothing
      · rw [List.head?_take, if_neg (by omega)]
        exact nonzero
    · exact fun c member => all c (List.mem_of_mem_drop member)
    · intro empty
      have bound := List.drop_eq_nil_iff.mp empty
      omega

theorem padded_ne_nil (width n : Nat) : padded width n ≠ [] :=
  List.append_ne_nil_of_right_ne_nil _ (digits_ne_nil n)

theorem readable_scientific {written : List Char} (all : ∀ c ∈ written, IsDigit c)
    (filled : written ≠ []) (nonzero : written.head? ≠ some '0') (power : Int) (width : Nat) :
    Readable (scientific written power width) := by
  have sign : (if power < 0 then '-' else '+') = '-' ∨ (if power < 0 then '-' else '+') = '+' := by
    split
    · exact Or.inl rfl
    · exact Or.inr rfl
  have exponent := isDigit_of_mem_padded width power.natAbs
  have present := padded_ne_nil width power.natAbs
  match written with
  | [] => exact absurd rfl filled
  | [digit] =>
      exact readable_exponent (whole_of_nonzero all filled nonzero) sign exponent present
  | digit :: next :: more =>
      have front : Whole [digit] := by
        refine whole_of_nonzero ?_ (List.cons_ne_nil _ _) nonzero
        intro c member
        rw [List.mem_singleton.mp member]
        exact all digit List.mem_cons_self
      have places : ∀ c ∈ next :: more, IsDigit c := fun c member =>
        all c (List.mem_cons_of_mem _ member)
      exact readable_fraction_exponent front places (List.cons_ne_nil _ _) sign exponent present

/-- Every finite real is written so that some real is read from it. -/
theorem write_real {x : Binary64} (finite : x.isFinite = true) :
    ∃ body, Readable body ∧ x.write numberSpelling = signed x.negative body := by
  have number : x.isNaN = false := by simp [Binary64.isNaN, finite]
  refine ⟨_, ?_, by rw [Binary64.write, number]; rfl⟩
  rw [finite]
  simp only [Bool.not_true, Bool.false_eq_true, if_false]
  split_ifs with zero range
  · apply readable_fraction ['0'] ['0'] whole_zero
    · intro c member
      rw [List.mem_singleton.mp member]
      exact isDigit_zero
    · exact List.cons_ne_nil _ _
  · have positive := Binary64.shortest_pos finite (Bool.not_eq_true _ ▸ zero)
    exact readable_positional (isDigit_of_mem_digits _) (digits_ne_nil _)
      (digits_head_ne_zero positive) _
  · have positive := Binary64.shortest_pos finite (Bool.not_eq_true _ ▸ zero)
    exact readable_scientific (isDigit_of_mem_digits _) (digits_ne_nil _)
      (digits_head_ne_zero positive) _ _

theorem begins_real {x : Binary64} (finite : x.isFinite = true) (rest : List Char) :
    BeginsNumber (x.write numberSpelling ++ rest) := by
  obtain ⟨body, readable, written⟩ := write_real finite
  obtain ⟨first, more, rfl, digit⟩ := readable.begins
  exact ⟨x.negative, first, more ++ rest, by rw [written, signed_append]; rfl, digit⟩

/-- The real that the text of a finite one is read as. -/
def reread (x : Binary64) : Binary64 :=
  match number? (x.write numberSpelling) with
  | some (.ok (.real y, _)) => y
  | _ => x

theorem number_write {x : Binary64} (finite : x.isFinite = true) {rest : List Char}
    (ends : Delimited rest) :
    number? (x.write numberSpelling ++ rest) = some (.ok (.real (reread x), rest)) := by
  obtain ⟨body, readable, written⟩ := write_real finite
  obtain ⟨y, reads⟩ := readable.reads x.negative
  have alone : number? (x.write numberSpelling) = some (.ok (.real y, [])) := by
    have nothing := reads [] (fun c first => by cases first)
    rw [List.append_nil] at nothing
    rw [written]
    exact nothing
  have same : reread x = y := by
    rw [reread, alone]
  rw [same, written, signed_append]
  exact reads rest ends

end Lifecycle.Json
