import Lifecycle.Proofs.Attempt
import Lifecycle.Proofs.Data
import Lifecycle.Schema
/-!
What schemas admit. Schemas that agree admit the same, so that it does not matter which of them speaks for the
others when a value is checked, and of a real they admit all or none. -/

namespace Lifecycle

open Decimal (Binary64)
open Value

namespace Shape

/-- The values that a shape allows. -/
def Admits : Shape → Value → Prop
  | .anything, _ => True
  | .flag, v => ∃ b, v = .flag b
  | .integer, v => ∃ n, v = .integer n
  | .number, v => (∃ x, v = .real x) ∨ ∃ n, v = .integer n ∧ Binary64.reaches n = true
  | .text, v => ∃ s, v = .text s
  | .optional inner, v => v = .null ∨ inner.Admits v
  | .list inner, v => ∃ items, v = .list items ∧ ∀ w ∈ items, inner.Admits w
  | .map inner, v => ∃ entries, v = .map entries ∧ ∀ entry ∈ entries, inner.Admits entry.2
  | .choice names, v => ∃ s ∈ names, v = .text s

/-- The items of a list are checked one by one. -/
theorem check_items_nil_iff (inner : Shape) (items : List Value) :
    (items.mapIdx fun n v => (check inner v).map (Problem.under (toString n))).flatten = [] ↔
      ∀ w ∈ items, check inner w = [] := by
  rw [List.flatten_eq_nil_iff]
  constructor
  · intro clean w member
    obtain ⟨n, bound, rfl⟩ := List.mem_iff_getElem.mp member
    have here := clean _ (List.mem_mapIdx.mpr ⟨n, bound, rfl⟩)
    exact List.map_eq_nil_iff.mp here
  · intro clean list member
    obtain ⟨n, bound, rfl⟩ := List.mem_mapIdx.mp member
    exact List.map_eq_nil_iff.mpr (clean _ (List.getElem_mem bound))

theorem check_nil_iff (s : Shape) (v : Value) : s.check v = [] ↔ s.Admits v := by
  induction s generalizing v with
  | anything => simp [check, Admits]
  | flag => cases v <;> simp [check, Admits, misfit]
  | integer => cases v <;> simp [check, Admits, misfit]
  | number => cases v <;> simp [check, Admits, misfit]
  | text => cases v <;> simp [check, Admits, misfit]
  | optional inner ih =>
      rw [Admits, ← ih]
      cases v <;> simp [check]
  | list inner ih =>
      cases v with
      | list items =>
          rw [check, check_items_nil_iff, Admits]
          simp [ih]
      | _ => simp [check, Admits, misfit]
  | map inner ih =>
      cases v with
      | map entries =>
          rw [check, Admits, List.flatMap_eq_nil_iff]
          simp [ih]
      | _ => simp [check, Admits, misfit]
  | choice names =>
      cases v with
      | text s => simp [check, Admits, misfit]
      | _ => simp [check, Admits, misfit]

/-- Shapes agree if they are the same but for the order of choices. -/
theorem agrees_induction {motive : Shape → Shape → Prop} (refl : ∀ s, motive s s)
    (choice : ∀ names others, (∀ s, s ∈ names ↔ s ∈ others) →
      motive (.choice names) (.choice others))
    (optional : ∀ s other, motive s other → motive (.optional s) (.optional other))
    (list : ∀ s other, motive s other → motive (.list s) (.list other))
    (map : ∀ s other, motive s other → motive (.map s) (.map other)) {s other : Shape}
    (same : s.agrees other = true) : motive s other := by
  induction s generalizing other with
  | anything | flag | integer | number | text =>
      obtain rfl := of_decide_eq_true same
      exact refl _
  | choice names =>
      cases other with
      | choice others =>
          obtain ⟨left, right⟩ := Bool.and_eq_true_iff.mp same
          rw [List.all_eq_true] at left right
          apply choice
          intro s
          constructor
          · exact fun member => List.contains_iff_mem.mp (left s member)
          · exact fun member => List.contains_iff_mem.mp (right s member)
      | _ => simp [agrees] at same
  | optional inner ih =>
      cases other with
      | optional other =>
          rw [agrees] at same
          exact optional inner other (ih same)
      | _ => simp [agrees] at same
  | list inner ih =>
      cases other with
      | list other =>
          rw [agrees] at same
          exact list inner other (ih same)
      | _ => simp [agrees] at same
  | map inner ih =>
      cases other with
      | map other =>
          rw [agrees] at same
          exact map inner other (ih same)
      | _ => simp [agrees] at same

theorem agrees_refl (s : Shape) : s.agrees s = true := by
  induction s with
  | optional inner ih | list inner ih | map inner ih => exact ih
  | choice names => simp [agrees]
  | _ => simp [agrees]

/-- Shapes that agree allow the same values. -/
theorem admits_of_agrees {s other : Shape} (same : s.agrees other = true) :
    ∀ v, s.Admits v ↔ other.Admits v := by
  apply agrees_induction (motive := fun s other => ∀ v, s.Admits v ↔ other.Admits v) _ _ _ _ _ same
  · exact fun s v => Iff.rfl
  · intro names others members v
    simp only [Admits, members]
  · intro s other ih v
    simp only [Admits, ih]
  · intro s other ih v
    simp only [Admits, ih]
  · intro s other ih v
    simp only [Admits, ih]

/-- Of shapes that agree both can be checked against or neither. -/
theorem usable_of_agrees {s other : Shape} (same : s.agrees other = true) :
    s.usable = other.usable := by
  apply agrees_induction (motive := fun s other => s.usable = other.usable) _ _ _ _ _ same
  · exact fun s => rfl
  · intro names others members
    have empty : names = [] ↔ others = [] := by
      simp only [List.eq_nil_iff_forall_not_mem, members]
    have same : names.isEmpty = others.isEmpty := by
      rw [Bool.eq_iff_iff, List.isEmpty_iff, List.isEmpty_iff, empty]
    rw [usable, usable, same]
  · exact fun s other ih => ih
  · exact fun s other ih => ih
  · exact fun s other ih => ih

/-- Changes of reals that make a real of the same reals, and the same of the others. -/
def Alike (change other : Binary64 → Value) : Prop :=
  ∀ x, (∃ y z, change x = .real y ∧ other x = .real z) ∨ change x = other x

theorem admits_real (s : Shape) (x y : Binary64) (admitted : s.Admits (.real x)) :
    s.Admits (.real y) := by
  induction s with
  | anything => exact True.intro
  | number => exact .inl ⟨y, rfl⟩
  | optional inner ih =>
      rcases admitted with null | admitted
      · cases null
      · exact .inr (ih admitted)
  | _ => simp [Admits] at admitted

theorem admits_change {change other : Binary64 → Value} (alike : Alike change other) (s : Shape)
    (x : Binary64) (admitted : s.Admits (change x)) : s.Admits (other x) := by
  rcases alike x with ⟨y, z, left, right⟩ | same
  · rw [left] at admitted
    rw [right]
    exact admits_real s y z admitted
  · rw [← same]
    exact admitted

/-- Which reals stand in a value makes no difference. -/
theorem admits_mapReals {change other : Binary64 → Value} (alike : Alike change other) (s : Shape)
    (v : Value) (admitted : s.Admits (v.mapReals change)) : s.Admits (v.mapReals other) := by
  induction s generalizing v with
  | anything => exact True.intro
  | optional inner ih =>
      cases v with
      | real x => exact admits_change alike (.optional inner) x admitted
      | null => exact .inl rfl
      | _ =>
          rcases admitted with null | admitted
          · cases null
          · exact .inr (ih _ admitted)
  | list inner ih =>
      cases v with
      | real x => exact admits_change alike (.list inner) x admitted
      | list items =>
          obtain ⟨changed, same, all⟩ := admitted
          obtain rfl := Value.list.inj same
          rw [mapRealsItems_eq] at all
          refine ⟨mapRealsItems other items, rfl, ?_⟩
          rw [mapRealsItems_eq]
          intro w member
          obtain ⟨v, inside, rfl⟩ := List.mem_map.mp member
          exact ih v (all _ (List.mem_map_of_mem inside))
      | _ => simp [mapReals, Admits] at admitted
  | map inner ih =>
      cases v with
      | real x => exact admits_change alike (.map inner) x admitted
      | map entries =>
          obtain ⟨changed, same, all⟩ := admitted
          obtain rfl := Value.map.inj same
          rw [mapRealsEntries_eq] at all
          refine ⟨mapRealsEntries other entries, rfl, ?_⟩
          rw [mapRealsEntries_eq]
          intro w member
          obtain ⟨entry, inside, rfl⟩ := List.mem_map.mp member
          exact ih entry.2 (all _ (List.mem_map_of_mem inside))
      | _ => simp [mapReals, Admits] at admitted
  | flag | integer | number | text | choice names =>
      cases v with
      | real x => exact admits_change alike _ x admitted
      | list items | map entries => simp [mapReals, Admits] at admitted
      | _ => exact admitted

end Shape

namespace Field

/-- What may stand in a field of a record. -/
def Admits (f : Field) (source : List (String × Value)) : Prop :=
  match Keyed.find? source f.name with
  | some v => f.shape.Admits v
  | none => f.required = false

end Field

namespace Schema

/-- The values that a schema allows. -/
def Admits : Schema → Value → Prop
  | .shape s, v => s.Admits v
  | .record _ extras fields, v => ∃ source, v = .map source ∧ (∀ f ∈ fields, f.Admits source) ∧
      (extras = .forbidden → ∀ entry ∈ source, ∃ f ∈ fields, f.name = entry.1)
  | .unusable, _ => False

theorem checkField_nil_iff (source : List (String × Value)) (f : Field) :
    checkField source f = [] ↔ f.Admits source := by
  rw [checkField, Field.Admits]
  cases Keyed.find? source f.name with
  | some v => exact List.map_eq_nil_iff.trans (Shape.check_nil_iff f.shape v)
  | none => cases f.required <;> simp

theorem surplus_nil_iff (fields : List Field) (source : List (String × Value)) :
    surplus fields source = [] ↔ ∀ entry ∈ source, ∃ f ∈ fields, f.name = entry.1 := by
  simp [surplus, List.filter_eq_nil_iff]

theorem problems_nil_iff {s : Schema} (usable : s.usable = true) (v : Value) :
    s.problems v = [] ↔ s.Admits v := by
  cases s with
  | shape s => exact Shape.check_nil_iff s v
  | unusable => cases usable
  | record title extras fields =>
      cases v with
      | map source =>
          rw [problems, checkRecord, List.append_eq_nil_iff, List.flatMap_eq_nil_iff]
          simp only [checkField_nil_iff, Admits, Value.map.injEq, exists_eq_left']
          by_cases forbidden : extras = .forbidden <;> simp [forbidden, surplus_nil_iff]
      | _ => simp [problems, Admits]

/-- Schemas that agree are the same, or shapes that agree. -/
theorem agrees_cases {s other : Schema} (same : s.agrees other = true) :
    s = other ∨ ∃ inner others : Shape,
      s = .shape inner ∧ other = .shape others ∧ inner.agrees others = true := by
  cases s with
  | shape inner =>
      cases other with
      | shape others => exact .inr ⟨inner, others, rfl, rfl, same⟩
      | _ => simp [agrees] at same
  | _ =>
      rw [agrees, decide_eq_true_iff] at same
      · exact .inl same
      · nofun

theorem admits_of_agrees {s other : Schema} (same : s.agrees other = true) (v : Value) :
    s.Admits v ↔ other.Admits v := by
  rcases agrees_cases same with rfl | ⟨inner, others, rfl, rfl, same⟩
  · exact Iff.rfl
  · exact Shape.admits_of_agrees same v

/-- Schemas that agree can be checked against if one of them can. -/
theorem usable_of_agrees {s other : Schema} (same : s.agrees other = true) :
    s.usable = other.usable := by
  rcases agrees_cases same with rfl | ⟨inner, others, rfl, rfl, same⟩
  · rfl
  · exact Shape.usable_of_agrees same

theorem agrees_refl (s : Schema) : s.agrees s = true := by
  cases s with
  | shape s => exact s.agrees_refl
  | _ => simp [agrees]

/-- The schema that speaks for a schema. -/
def speaker (known : Checkers) (s : Schema) : Schema := (known.find? s.agrees).getD s

/-- What is known once a schema was checked against. -/
def learnt (known : Checkers) (s : Schema) : Checkers :=
  match known.find? s.agrees with
  | some _ => known
  | none => s :: known

theorem run_check {s : Schema} (usable : s.usable = true) (v : Value) (known : Checkers) :
    s.check v known = (.ok ((s.speaker known).problems v), s.learnt known) := by
  rw [check, usable, speaker, learnt]
  simp only [Bool.not_true, Bool.false_eq_true, if_false]
  rw [Attempt.run_bind_ok (Attempt.run_get _)]
  cases known.find? s.agrees <;> rfl

theorem agrees_speaker (known : Checkers) (s : Schema) : s.agrees (s.speaker known) = true := by
  rw [speaker]
  cases found : known.find? s.agrees with
  | none => exact s.agrees_refl
  | some checker => exact List.find?_some found

/-- Whichever schema is asked, nothing is found in what the schema allows and something in the rest. -/
theorem check_nil_iff (s : Schema) (v : Value) (checkers : Checkers) :
    (s.check v checkers).1 = .ok [] ↔ s.usable = true ∧ s.Admits v := by
  cases usable : s.usable with
  | false => simp [check, usable]
  | true =>
      have same := s.agrees_speaker checkers
      have able : (s.speaker checkers).usable = true := usable_of_agrees same ▸ usable
      rw [run_check usable, admits_of_agrees same, ← problems_nil_iff able, Except.ok.injEq]
      exact (and_iff_right rfl).symm

theorem find?_mapRealsEntries (change : Binary64 → Value) (entries : List (String × Value))
    (key : String) :
    Keyed.find? (mapRealsEntries change entries) key =
      (Keyed.find? entries key).map (mapReals change) := by
  induction entries with
  | nil => rfl
  | cons entry rest ih =>
      rw [mapRealsEntries, Keyed.find?, Keyed.find?, ih]
      split <;> rfl

theorem admitsField_mapReals {change other : Binary64 → Value} (alike : Shape.Alike change other)
    {f : Field} {entries : List (String × Value)} (admitted : f.Admits (mapRealsEntries change entries)) :
    f.Admits (mapRealsEntries other entries) := by
  rw [Field.Admits, find?_mapRealsEntries] at admitted ⊢
  cases found : Keyed.find? entries f.name with
  | none =>
      rw [found] at admitted
      exact admitted
  | some w =>
      rw [found] at admitted
      exact Shape.admits_mapReals alike f.shape w admitted

theorem admits_mapReals {change other : Binary64 → Value} (alike : Shape.Alike change other)
    (s : Schema) (v : Value) (admitted : s.Admits (v.mapReals change)) :
    s.Admits (v.mapReals other) := by
  cases s with
  | unusable => exact admitted
  | shape s => exact Shape.admits_mapReals alike s v admitted
  | record title extras fields =>
      cases v with
      | map entries =>
          obtain ⟨source, same, all, declared⟩ := admitted
          obtain rfl := Value.map.inj same
          refine ⟨mapRealsEntries other entries, rfl,
            fun f member => admitsField_mapReals alike (all f member), ?_⟩
          intro forbidden
          have declared := declared forbidden
          rw [mapRealsEntries_eq] at declared ⊢
          intro entry member
          obtain ⟨old, inside, rfl⟩ := List.mem_map.mp member
          exact declared (old.1, old.2.mapReals change) (List.mem_map.mpr ⟨old, inside, rfl⟩)
      | real x =>
          rcases alike x with ⟨y, z, left, right⟩ | same
          · obtain ⟨source, shape, _⟩ := admitted
            rw [mapReals, left] at shape
            cases shape
          · rw [mapReals, same] at admitted
            exact admitted
      | list items =>
          obtain ⟨source, shape, _⟩ := admitted
          cases shape
      | _ => exact admitted

/-- A record that a schema allows it also allows without an entry that is not required. -/
theorem admits_erase {title : String} {extras : Extras} {fields : List Field} {m : Metadata} {key : String}
    (admitted : (record title extras fields).Admits (.map m))
    (optional : ∀ f ∈ fields, f.name = key → f.required = false) :
    (record title extras fields).Admits (.map (Keyed.erase m key)) := by
  have ⟨source, same, each, declared⟩ := admitted
  cases same
  refine ⟨_, rfl, ?_, ?_⟩
  · intro f member
    have there := each f member
    by_cases erased : f.name = key
    · rw [Field.Admits, erased, Keyed.find?_erase]
      exact optional f member erased
    · rw [Field.Admits, Keyed.find?_erase_ne (Ne.symm erased)]
      exact there
  · exact fun forbidden entry member => declared forbidden entry (Keyed.mem_of_mem_erase member)

end Schema

end Lifecycle
