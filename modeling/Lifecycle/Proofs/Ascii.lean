import Lifecycle.Json.Printer
import Lifecycle.Proofs.Digits
import Lifecycle.Text.Lines
/-!
What JSON texts are made of: printing characters of ASCII, and newlines between them. So no convention for
line ends reads them in another way. -/

namespace Lifecycle.Json

open Decimal (IsDigit digits)

/-- A newline or a printing character of ASCII. -/
def Ascii (c : Char) : Prop := c = '\n' ∨ 32 ≤ c.toNat ∧ c.toNat < 127

instance (c : Char) : Decidable (Ascii c) := inferInstanceAs (Decidable (_ ∨ _))

theorem ascii_of_all {text : List Char} (all : text.all (fun c => decide (Ascii c)) = true) :
    ∀ c ∈ text, Ascii c := fun c member => of_decide_eq_true (List.all_eq_true.mp all c member)

theorem ascii_of_digit {c : Char} (digit : IsDigit c) : Ascii c := by
  rw [Decimal.isDigit_iff] at digit
  exact .inr ⟨by omega, by omega⟩

theorem ascii_digits {written : List Char} (all : ∀ c ∈ written, IsDigit c) : ∀ c ∈ written, Ascii c :=
  fun c member => ascii_of_digit (all c member)

theorem ascii_integer (n : Int) : ∀ c ∈ Decimal.integer n, Ascii c := by
  cases n with
  | ofNat n => exact ascii_digits (Decimal.isDigit_of_mem_digits n)
  | negSucc n =>
      exact List.forall_mem_cons.mpr ⟨by decide, ascii_digits (Decimal.isDigit_of_mem_digits _)⟩

theorem ascii_zeros (count : Nat) : ∀ c ∈ List.replicate count '0', Ascii c := by
  intro c member
  rw [List.eq_of_mem_replicate member]
  decide

theorem ascii_positional {written : List Char} (all : ∀ c ∈ written, IsDigit c) (point : Int) :
    ∀ c ∈ Decimal.positional written point, Ascii c := by
  have all := ascii_digits all
  rw [Decimal.positional]
  split_ifs
  · simp only [List.forall_mem_append, List.forall_mem_cons]
    exact ⟨⟨by decide, by decide, ascii_zeros _⟩, all⟩
  · simp only [List.forall_mem_append]
    exact ⟨⟨all, ascii_zeros _⟩, ascii_of_all rfl⟩
  · simp only [List.forall_mem_append, List.forall_mem_cons]
    exact ⟨fun c member => all c (List.mem_of_mem_take member), by decide,
      fun c member => all c (List.mem_of_mem_drop member)⟩

theorem ascii_scientific {written : List Char} (all : ∀ c ∈ written, IsDigit c) (power : Int)
    (width : Nat) : ∀ c ∈ Decimal.scientific written power width, Ascii c := by
  have all := ascii_digits all
  have exponent := ascii_digits (Decimal.isDigit_of_mem_padded width power.natAbs)
  have sign : Ascii (if power < 0 then '-' else '+') := by split_ifs <;> decide
  unfold Decimal.scientific
  simp only [List.forall_mem_append, List.forall_mem_cons]
  refine ⟨?_, by decide, sign, exponent⟩
  split
  · exact all
  · obtain ⟨first, rest⟩ := List.forall_mem_cons.mp all
    exact List.forall_mem_cons.mpr ⟨first, List.forall_mem_cons.mpr ⟨by decide, rest⟩⟩
  · exact List.forall_mem_nil _

theorem ascii_real (x : Decimal.Binary64) : ∀ c ∈ x.write numberSpelling, Ascii c := by
  have signed {magnitude : List Char} (all : ∀ c ∈ magnitude, Ascii c) :
      ∀ c ∈ (if x.negative then '-' :: magnitude else magnitude), Ascii c := by
    split_ifs
    · exact List.forall_mem_cons.mpr ⟨by decide, all⟩
    · exact all
  rw [Decimal.Binary64.write]
  split
  · exact ascii_of_all rfl
  · refine signed ?_
    split
    · exact ascii_of_all rfl
    · split
      · exact ascii_of_all rfl
      · simp only
        split
        · exact ascii_positional (Decimal.isDigit_of_mem_digits _) _
        · exact ascii_scientific (Decimal.isDigit_of_mem_digits _) _ _

theorem ascii_hexDigit : ∀ n < 16, Ascii (Text.hexDigit n) := by decide

theorem ascii_hex (width n : Nat) : ∀ c ∈ Text.hex width n, Ascii c := by
  induction width generalizing n with
  | zero => exact List.forall_mem_nil _
  | succ width ih =>
      rw [Text.hex, List.forall_mem_append, List.forall_mem_singleton]
      exact ⟨ih _, ascii_hexDigit _ (Nat.mod_lt _ (by decide))⟩

theorem ascii_unit (code : Nat) : ∀ c ∈ unit code, Ascii c := by
  rw [unit, List.forall_mem_cons, List.forall_mem_cons]
  exact ⟨by decide, by decide, ascii_hex 4 code⟩

theorem ascii_escapeChar (c : Char) : ∀ d ∈ escapeChar c, Ascii d := by
  rw [escapeChar]
  split_ifs with _ _ _ _ _ _ _ printing
  iterate 7 exact ascii_of_all rfl
  · exact List.forall_mem_singleton.mpr (.inr printing)
  · exact ascii_unit _
  · exact List.forall_mem_append.mpr ⟨ascii_unit _, ascii_unit _⟩

theorem ascii_writeText (s : String) : ∀ c ∈ writeText s, Ascii c := by
  rw [writeText, List.forall_mem_append, List.forall_mem_cons, List.forall_mem_flatMap]
  exact ⟨⟨by decide, fun c _ => ascii_escapeChar c⟩, ascii_of_all rfl⟩

theorem ascii_lineBreak (layout : Layout) (depth : Nat) : ∀ c ∈ layout.lineBreak depth, Ascii c := by
  cases layout with
  | inline => exact List.forall_mem_nil _
  | indented width =>
      refine List.forall_mem_cons.mpr ⟨by decide, fun c member => ?_⟩
      rw [List.eq_of_mem_replicate member]
      decide

theorem ascii_comma (layout : Layout) (depth : Nat) : ∀ c ∈ layout.comma depth, Ascii c := by
  cases layout with
  | inline => exact ascii_of_all rfl
  | indented width => exact List.forall_mem_cons.mpr ⟨by decide, ascii_lineBreak _ depth⟩

mutual

theorem ascii_write (layout : Layout) (depth : Nat) (v : Value) : ∀ c ∈ write layout depth v, Ascii c := by
  cases v with
  | null => exact ascii_of_all rfl
  | flag b =>
      cases b with
      | true => exact ascii_of_all rfl
      | false => exact ascii_of_all rfl
  | integer n => exact ascii_integer n
  | real x => exact ascii_real x
  | text s => exact ascii_writeText s
  | list items =>
      cases items with
      | nil => exact ascii_of_all rfl
      | cons v rest =>
          simp only [write, List.forall_mem_append, List.forall_mem_cons]
          exact ⟨⟨⟨⟨⟨by decide, ascii_lineBreak layout _⟩, ascii_write layout _ v⟩,
            ascii_writeItems layout _ rest⟩, ascii_lineBreak layout _⟩, by decide, List.forall_mem_nil _⟩
  | map entries =>
      cases entries with
      | nil => exact ascii_of_all rfl
      | cons entry rest =>
          obtain ⟨key, v⟩ := entry
          simp only [write, List.forall_mem_append, List.forall_mem_cons]
          exact ⟨⟨⟨⟨⟨⟨⟨by decide, ascii_lineBreak layout _⟩, ascii_writeText key⟩, by decide, by decide,
            List.forall_mem_nil _⟩, ascii_write layout _ v⟩, ascii_writeEntries layout _ rest⟩,
              ascii_lineBreak layout _⟩, by decide, List.forall_mem_nil _⟩
  | live => exact ascii_of_all rfl
  | moment t => exact ascii_of_all rfl
  | record kind entries => exact ascii_of_all rfl

theorem ascii_writeItems (layout : Layout) (depth : Nat) (items : List Value) :
    ∀ c ∈ writeItems layout depth items, Ascii c := by
  cases items with
  | nil => exact List.forall_mem_nil _
  | cons v rest =>
      simp only [writeItems, List.forall_mem_append]
      exact ⟨⟨ascii_comma layout depth, ascii_write layout depth v⟩, ascii_writeItems layout depth rest⟩

theorem ascii_writeEntries (layout : Layout) (depth : Nat) (entries : List (String × Value)) :
    ∀ c ∈ writeEntries layout depth entries, Ascii c := by
  cases entries with
  | nil => exact List.forall_mem_nil _
  | cons entry rest =>
      obtain ⟨key, v⟩ := entry
      simp only [writeEntries, List.forall_mem_append, List.forall_mem_cons]
      exact ⟨⟨⟨⟨ascii_comma layout depth, ascii_writeText key⟩, by decide, by decide,
        List.forall_mem_nil _⟩, ascii_write layout depth v⟩, ascii_writeEntries layout depth rest⟩

end

end Lifecycle.Json

namespace Lifecycle.Text

theorem unifyNewlines_eq {text : List Char} (plain : '\r' ∉ text) : unifyNewlines text = text := by
  fun_induction unifyNewlines text with
  | case1 rest ih => exact absurd List.mem_cons_self plain
  | case2 rest _ ih => exact absurd List.mem_cons_self plain
  | case3 c rest _ _ ih => rw [ih fun member => plain (List.mem_cons_of_mem _ member)]
  | case4 => rfl

end Lifecycle.Text
