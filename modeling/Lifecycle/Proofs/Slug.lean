import Lifecycle.Text.Slug
import Mathlib.Data.List.Chain
import Mathlib.Data.List.DropRight
/-!
Names derived from descriptions. Only lower-casing makes a name longer than what it is made from, by a
character for each dotted capital I; and what is derived from a name is that name again, unless it is longer
than what of a description counts. -/

namespace Lifecycle.Text

/-- The one capital whose lower case is more than one character. -/
def dottedCapital : Char := '\u0130'

theorem length_lowerCase (c : Char) : (lowerCase c).length = if c = dottedCapital then 2 else 1 := by
  unfold lowerCase dottedCapital
  by_cases dotted : c = '\u0130'
  · subst dotted
    decide
  · rw [if_neg dotted, if_neg dotted]
    split
    · rfl
    · split <;> rfl

theorem length_flatMap_lowerCase (text : List Char) :
    (text.flatMap lowerCase).length = text.length + text.count dottedCapital := by
  induction text with
  | nil => rfl
  | cons c rest ih =>
      rw [List.flatMap_cons, List.length_append, length_lowerCase, ih, List.length_cons, List.count_cons]
      by_cases dotted : c = dottedCapital
      · simp only [dotted, if_true, beq_self_eq_true]
        omega
      · simp only [dotted, if_false, beq_eq_false_iff_ne.mpr dotted, Bool.false_eq_true]
        omega

theorem length_hyphenated_le (text : List Char) : (hyphenated text).length ≤ text.length := by
  induction text with
  | nil => exact Nat.le_refl 0
  | cons c rest ih =>
      rw [hyphenated]
      split
      · exact Nat.succ_le_succ ih
      · split
        · next tail same =>
            rw [same] at ih
            exact Nat.le_succ_of_le ih
        · exact Nat.succ_le_succ ih

theorem trimHyphens_eq (text : List Char) :
    trimHyphens text = (text.dropWhile (· = '-')).rdropWhile (· = '-') := rfl

theorem trimHyphens_within (text : List Char) : trimHyphens text <:+: text := by
  have front : text.dropWhile (· = '-') <:+ text := List.dropWhile_suffix _
  rw [trimHyphens_eq]
  exact (List.rdropWhile_prefix _ _).isInfix.trans front.isInfix

theorem trimHyphens_trimHyphens (text : List Char) : trimHyphens (trimHyphens text) = trimHyphens text := by
  -- What is trimmed behind begins as it did before, and that was no hyphen.
  have front : (trimHyphens text).dropWhile (· = '-') = trimHyphens text := by
    rw [trimHyphens_eq]
    generalize trimmed : text.dropWhile (· = '-') = tail
    obtain ⟨behind, whole⟩ := List.rdropWhile_prefix (fun c : Char => decide (c = '-')) tail
    cases kept : tail.rdropWhile (· = '-') with
    | nil => rfl
    | cons c rest =>
        rw [kept, List.cons_append, ← trimmed] at whole
        have first := List.head?_dropWhile_not (fun c : Char => decide (c = '-')) text
        rw [← whole, List.head?_cons] at first
        simp only at first
        rw [List.dropWhile_cons_of_neg]
        simpa using first
  rw [trimHyphens_eq, front, trimHyphens_eq, List.rdropWhile_idempotent]

/-- Words and hyphens between or around them, of which no two stand side by side. -/
structure Hyphened (text : List Char) : Prop where
  chars : ∀ c ∈ text, WordChar c ∨ c = '-'
  alone : text.IsChain fun c next => c ≠ '-' ∨ next ≠ '-'

namespace Hyphened

theorem cons {c : Char} {rest : List Char} (hyphened : Hyphened rest) (fits : WordChar c ∨ c = '-')
    (apart : c ≠ '-' ∨ rest.head? ≠ some '-') : Hyphened (c :: rest) where
  chars := List.forall_mem_cons.mpr ⟨fits, hyphened.chars⟩
  alone := by
    refine List.isChain_cons.mpr ⟨?_, hyphened.alone⟩
    intro next first
    exact apart.imp_right fun other same => other (same ▸ first)

theorem of_inner {part text : List Char} (hyphened : Hyphened text) (inside : part <:+: text) :
    Hyphened part where
  chars c member := hyphened.chars c (inside.subset member)
  alone := hyphened.alone.infix inside

end Hyphened

theorem not_wordChar_hyphen : ¬WordChar '-' := by decide

theorem hyphened_hyphenated (text : List Char) : Hyphened (hyphenated text) := by
  induction text with
  | nil => exact ⟨nofun, .nil⟩
  | cons c rest ih =>
      rw [hyphenated]
      split
      · next word =>
          have other : c ≠ '-' := fun same => not_wordChar_hyphen (same ▸ word)
          exact ih.cons (.inl word) (.inl other)
      · split
        · next tail same => exact same ▸ ih
        · next new =>
            refine ih.cons (.inr rfl) (.inr fun first => ?_)
            obtain ⟨tail, same⟩ := List.head?_eq_some_iff.mp first
            exact new tail same

/-- Where hyphens stand alone none is put in and none taken out. -/
theorem Hyphened.hyphenated {text : List Char} (hyphened : Hyphened text) : hyphenated text = text := by
  induction text with
  | nil => rfl
  | cons c rest ih =>
      have others : Text.hyphenated rest = rest := ih (hyphened.of_inner (List.suffix_cons c rest).isInfix)
      rw [Text.hyphenated, others]
      split
      · rfl
      · next noWord =>
          have hyphen : c = '-' := (hyphened.chars c List.mem_cons_self).resolve_left noWord
          split
          · next tail same =>
              have both := (List.isChain_cons_cons.mp hyphened.alone).1
              exact absurd both (by simp [hyphen])
          · rw [hyphen]

theorem lowerCase_of_plain {c : Char} (plain : WordChar c ∨ c = '-') : lowerCase c = [c] := by
  have small : ¬('A' ≤ c ∧ c ≤ 'Z') := by
    rintro ⟨low, high⟩
    rcases plain with (⟨letter, _⟩ | ⟨_, digit⟩) | rfl
    · exact absurd (Char.le_trans letter high) (by decide)
    · exact absurd (Char.le_trans low digit) (by decide)
    · exact absurd low (by decide)
  have other (special : Char) (foreign : ¬(WordChar special ∨ special = '-')) : c ≠ special :=
    fun same => foreign (same ▸ plain)
  rw [lowerCase, if_neg small, if_neg (other _ (by decide)), if_neg (other _ (by decide))]

theorem flatMap_lowerCase {text : List Char} (plain : ∀ c ∈ text, WordChar c ∨ c = '-') :
    text.flatMap lowerCase = text := by
  induction text with
  | nil => rfl
  | cons c rest ih =>
      have others := ih fun d member => plain d (List.mem_cons_of_mem c member)
      rw [List.flatMap_cons, lowerCase_of_plain (plain c List.mem_cons_self), others]
      rfl

theorem toList_slug (description : String) : (slug description).toList =
    trimHyphens (hyphenated ((description.toList.take slugLimit).flatMap lowerCase)) :=
  String.toList_ofList

theorem hyphened_slug (description : String) : Hyphened (slug description).toList := by
  rw [toList_slug]
  exact (hyphened_hyphenated _).of_inner (trimHyphens_within _)

/-- Every character that counts adds one to a name, and a dotted capital I another. -/
theorem length_slug_le (description : String) : (slug description).length ≤
    slugLimit + (description.toList.take slugLimit).count dottedCapital := by
  have counts : (description.toList.take slugLimit).length ≤ slugLimit := List.length_take_le _ _
  have lowered := length_flatMap_lowerCase (description.toList.take slugLimit)
  have joined := length_hyphenated_le ((description.toList.take slugLimit).flatMap lowerCase)
  have trimmed := (trimHyphens_within
    (hyphenated ((description.toList.take slugLimit).flatMap lowerCase))).length_le
  rw [← String.length_toList, toList_slug]
  omega

theorem count_slug (description : String) : (slug description).toList.count dottedCapital = 0 := by
  rw [List.count_eq_zero]
  intro member
  exact absurd ((hyphened_slug description).chars _ member) (by decide)

/-- A name is derived from a name as it is, as far as it counts. -/
theorem slug_slug {description : String} (short : (slug description).length ≤ slugLimit) :
    slug (slug description) = slug description := by
  have whole : (slug description).toList.take slugLimit = (slug description).toList :=
    List.take_of_length_le (String.length_toList ▸ short)
  have hyphened := hyphened_slug description
  apply String.toList_inj.mp
  rw [toList_slug, whole, flatMap_lowerCase hyphened.chars, hyphened.hyphenated, toList_slug,
    trimHyphens_trimHyphens]

/-- A name has at most the characters that count of a description and one more for each dotted capital I
among these, so that without one it is never too long; and deriving a name from a name gives it back if and
only if it is not too long. -/
theorem slug_within (description : String) :
    (slug description).length ≤ slugLimit + (description.toList.take slugLimit).count dottedCapital ∧
      (slug (slug description) = slug description ↔ (slug description).length ≤ slugLimit) := by
  refine ⟨length_slug_le description, ?_, slug_slug⟩
  intro again
  have bound := length_slug_le (slug description)
  have none : ((slug description).toList.take slugLimit).count dottedCapital = 0 :=
    Nat.le_zero.mp ((List.take_sublist _ _).count_le dottedCapital |>.trans_eq (count_slug description))
  rw [again, none] at bound
  exact bound

/-- A name of 51 characters from a description of 50. -/
example : (slug (String.ofList (List.replicate 48 'a' ++ [dottedCapital, 'a']))).length = 51 := by
  decide +kernel

end Lifecycle.Text
