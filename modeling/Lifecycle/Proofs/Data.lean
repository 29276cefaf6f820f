import Lifecycle.Document.Dump
/-!
What JSON can hold of values, and values with other values in the place of reals: writing leaves such
data alone but for reals that are not finite. -/

namespace Lifecycle

namespace Keyed

variable {κ α : Type} [DecidableEq κ]

theorem mem_of_find? {table : Keyed κ α} {k : κ} {a : α} (found : find? table k = some a) :
    (k, a) ∈ table := by
  induction table with
  | nil => cases found
  | cons entry rest ih =>
      rw [find?] at found
      by_cases same : entry.1 = k
      · rw [if_pos same] at found
        cases found
        rw [← same]
        exact List.mem_cons_self
      · rw [if_neg same] at found
        exact List.mem_cons_of_mem _ (ih found)

/-- Where no key comes twice, what is found is what is there. -/
theorem find?_eq_some_iff {table : Keyed κ α} (distinct : Distinct table) {k : κ} {a : α} :
    find? table k = some a ↔ (k, a) ∈ table := by
  refine ⟨mem_of_find?, fun member => ?_⟩
  induction table with
  | nil => cases member
  | cons entry rest ih =>
      obtain ⟨fresh, distinct⟩ := List.nodup_cons.mp distinct
      rw [find?]
      rcases List.mem_cons.mp member with rfl | later
      · exact if_pos rfl
      · rw [if_neg, ih distinct later]
        rintro rfl
        exact fresh (List.mem_map.mpr ⟨_, later, rfl⟩)

theorem put_new {table : Keyed κ α} {k : κ} (new : k ∉ keys table) (a : α) :
    put table k a = table ++ [(k, a)] := by
  induction table with
  | nil => rfl
  | cons entry rest ih =>
      obtain ⟨key, old⟩ := entry
      rw [keys_cons, List.mem_cons, not_or] at new
      rw [put, if_neg (Ne.symm new.1), ih new.2]
      rfl

private theorem foldl_put (entries table : Keyed κ α) (distinct : (keys (table ++ entries)).Nodup) :
    entries.foldl (fun table entry => put table entry.1 entry.2) table = table ++ entries := by
  induction entries generalizing table with
  | nil => rw [List.foldl_nil, List.append_nil]
  | cons entry rest ih =>
      have new : entry.1 ∉ keys table := by
        unfold keys at distinct ⊢
        rw [List.map_append, List.map_cons, List.nodup_append] at distinct
        intro member
        exact distinct.2.2 _ member _ List.mem_cons_self rfl
      rw [List.foldl_cons, put_new new, ih]
      · rw [List.append_assoc]
        rfl
      · rw [List.append_assoc]
        exact distinct

/-- A list in which no key comes twice is a table as it stands. -/
theorem ofList_eq {entries : Keyed κ α} (distinct : Distinct entries) : ofList entries = entries :=
  foldl_put entries [] distinct

theorem distinct_put {table : Keyed κ α} (distinct : Distinct table) (k : κ) (a : α) :
    Distinct (put table k a) := by
  rw [Distinct, keys_put]
  split
  · exact distinct
  · next new =>
      rw [List.nodup_append]
      refine ⟨distinct, by simp, ?_⟩
      intro key member other single same
      rw [List.mem_singleton] at single
      exact new (single ▸ same ▸ member)

theorem mem_of_mem_erase {table : Keyed κ α} {k : κ} {entry : κ × α} (member : entry ∈ erase table k) :
    entry ∈ table := by
  induction table with
  | nil => cases member
  | cons first rest ih =>
      rw [erase] at member
      split at member
      · exact List.mem_cons_of_mem _ (ih member)
      · cases List.mem_cons.mp member with
        | inl same => exact same ▸ List.mem_cons_self
        | inr later => exact List.mem_cons_of_mem _ (ih later)

theorem find?_erase_ne {k l : κ} (other : k ≠ l) (table : Keyed κ α) :
    find? (erase table k) l = find? table l := by
  induction table with
  | nil => rfl
  | cons first rest ih =>
      rw [erase, find?]
      by_cases here : first.1 = k
      · rw [if_pos here, ih, if_neg (here ▸ other)]
      · rw [if_neg here, find?, ih]

end Keyed

open Decimal (Binary64)

namespace Value

mutual

/-- Whether a value is one that JSON has, with no key twice in a map; reals have to pass a test. -/
def isData (real : Binary64 → Bool) : Value → Bool
  | .real x => real x
  | .list items => itemsAreData real items
  | .map entries => decide (Keyed.Distinct entries) && entriesAreData real entries
  | .live | .moment _ | .record _ _ => false
  | _ => true

def itemsAreData (real : Binary64 → Bool) : List Value → Bool
  | [] => true
  | v :: rest => isData real v && itemsAreData real rest

def entriesAreData (real : Binary64 → Bool) : List (String × Value) → Bool
  | [] => true
  | (_, v) :: rest => isData real v && entriesAreData real rest

end

mutual

/-- Puts other values for reals. -/
def mapReals (change : Binary64 → Value) : Value → Value
  | .real x => change x
  | .list items => .list (mapRealsItems change items)
  | .map entries => .map (mapRealsEntries change entries)
  | v => v

def mapRealsItems (change : Binary64 → Value) : List Value → List Value
  | [] => []
  | v :: rest => mapReals change v :: mapRealsItems change rest

def mapRealsEntries (change : Binary64 → Value) : List (String × Value) → List (String × Value)
  | [] => []
  | (key, v) :: rest => (key, mapReals change v) :: mapRealsEntries change rest

end

variable {real : Binary64 → Bool}

theorem itemsAreData_iff (items : List Value) :
    itemsAreData real items = true ↔ ∀ v ∈ items, v.isData real = true := by
  induction items with
  | nil => simp [itemsAreData]
  | cons v rest ih => simp [itemsAreData, ih]

theorem entriesAreData_iff (entries : List (String × Value)) :
    entriesAreData real entries = true ↔ ∀ entry ∈ entries, entry.2.isData real = true := by
  induction entries with
  | nil => simp [entriesAreData]
  | cons entry rest ih => simp [entriesAreData, ih]

theorem mapRealsItems_eq (change : Binary64 → Value) (items : List Value) :
    mapRealsItems change items = items.map (mapReals change) := by
  induction items with
  | nil => rfl
  | cons v rest ih => rw [mapRealsItems, ih, List.map_cons]

theorem mapRealsEntries_eq (change : Binary64 → Value) (entries : List (String × Value)) :
    mapRealsEntries change entries = entries.map fun entry => (entry.1, entry.2.mapReals change) := by
  induction entries with
  | nil => rfl
  | cons entry rest ih => rw [mapRealsEntries, ih, List.map_cons]

theorem keys_mapRealsEntries (change : Binary64 → Value) (entries : List (String × Value)) :
    Keyed.keys (mapRealsEntries change entries) = Keyed.keys entries := by
  rw [mapRealsEntries_eq, Keyed.keys, List.map_map]
  rfl

theorem finiteItems_eq (items : List Value) : finiteItems items = items.map finite := by
  induction items with
  | nil => rfl
  | cons v rest ih => rw [finiteItems, ih, List.map_cons]

theorem finiteEntries_eq (entries : List (String × Value)) :
    finiteEntries entries = entries.map fun entry => (entry.1, entry.2.finite) := by
  induction entries with
  | nil => rfl
  | cons entry rest ih => rw [finiteEntries, ih, List.map_cons]

theorem bareEntries_eq (entries : List (String × Value)) :
    bareEntries entries = entries.map fun entry => (entry.1, entry.2.bare) := by
  induction entries with
  | nil => rfl
  | cons entry rest ih => rw [bareEntries, ih, List.map_cons]

theorem writableItems_iff (items : List Value) :
    writableItems items = true ↔ ∀ v ∈ items, v.writable = true := by
  induction items with
  | nil => simp [writableItems]
  | cons v rest ih => simp [writableItems, ih]

theorem writableEntries_iff (entries : List (String × Value)) :
    writableEntries entries = true ↔ ∀ entry ∈ entries, entry.2.writable = true := by
  induction entries with
  | nil => simp [writableEntries]
  | cons entry rest ih => simp [writableEntries, ih]

theorem withinItems_iff (levels : Nat) (items : List Value) :
    withinItems levels items = true ↔ ∀ v ∈ items, v.within levels = true := by
  induction items with
  | nil => simp [withinItems]
  | cons v rest ih => simp [withinItems, ih]

theorem withinEntries_iff (levels : Nat) (entries : List (String × Value)) :
    withinEntries levels entries = true ↔ ∀ entry ∈ entries, entry.2.within levels = true := by
  induction entries with
  | nil => simp [withinEntries]
  | cons entry rest ih => simp [withinEntries, ih]

theorem data_of_mem_items {items : List Value} (data : (Value.list items).isData real = true) :
    ∀ v ∈ items, v.isData real = true :=
  (itemsAreData_iff items).mp data

theorem data_of_mem_entries {entries : List (String × Value)}
    (data : (Value.map entries).isData real = true) : ∀ entry ∈ entries, entry.2.isData real = true :=
  (entriesAreData_iff entries).mp (Bool.and_eq_true_iff.mp data).2

theorem distinct_of_data {entries : List (String × Value)}
    (data : (Value.map entries).isData real = true) : Keyed.Distinct entries :=
  of_decide_eq_true (Bool.and_eq_true_iff.mp data).1

/-- What holds of texts, numbers and the like, and of lists and maps if of all that is in them, holds
of all data. -/
@[elab_as_elim]
theorem data_induction {motive : (v : Value) → v.isData real = true → Prop}
    (null : motive .null rfl) (flag : ∀ b, motive (.flag b) rfl)
    (integer : ∀ n, motive (.integer n) rfl) (number : ∀ x passed, motive (.real x) passed)
    (text : ∀ s, motive (.text s) rfl)
    (list : ∀ items data, (∀ v member, motive v (data_of_mem_items data v member)) →
      motive (.list items) data)
    (map : ∀ entries data,
      (∀ entry member, motive entry.2 (data_of_mem_entries data entry member)) →
      motive (.map entries) data)
    (v : Value) (data : v.isData real = true) : motive v data := by
  match v, data with
  | .null, _ => exact null
  | .flag b, _ => exact flag b
  | .integer n, _ => exact integer n
  | .real x, passed => exact number x passed
  | .text s, _ => exact text s
  | .list items, data =>
      apply list
      intro w member
      exact data_induction null flag integer number text list map w _
  | .map entries, data =>
      apply map
      intro entry member
      exact data_induction null flag integer number text list map entry.2 _
termination_by sizeOf v
decreasing_by
  · have smaller := List.sizeOf_lt_of_mem member
    simp only [Value.list.sizeOf_spec]
    omega
  · have smaller := List.sizeOf_lt_of_mem member
    obtain ⟨key, w⟩ := entry
    simp only [Value.map.sizeOf_spec, Prod.mk.sizeOf_spec] at smaller ⊢
    omega

private theorem map_fixed {α : Type} {change : α → α} {list : List α}
    (fixed : ∀ a ∈ list, change a = a) : list.map change = list :=
  (List.map_congr_left fixed).trans (List.map_id' list)

theorem bareItems_none {items : List Value} (data : ∀ v ∈ items, v.isData real = true) :
    bareItems none items = items.map bare := by
  induction items with
  | nil => rfl
  | cons v rest ih =>
      have others := ih fun w member => data w (List.mem_cons_of_mem v member)
      have here := data v List.mem_cons_self
      cases v with
      | record kind fields => cases here
      | _ =>
          rw [bareItems, others, List.map_cons]
          nofun

/-- Data is written as it is. -/
theorem bare_data {v : Value} (data : v.isData real = true) : v.bare = v := by
  induction v, data using data_induction with
  | null | flag b | integer n | number x passed | text s => rfl
  | list items data ih =>
      rw [bare, bareItems_none (data_of_mem_items data)]
      congr 1
      exact map_fixed ih
  | map entries data ih =>
      rw [bare, bareEntries_eq]
      congr 1
      exact map_fixed fun entry member => by rw [ih entry member]

/-- A real as it is stored, if it is. -/
def finiteReal (x : Binary64) : Value := if x.isFinite then .real x else .null

theorem finite_data {v : Value} (data : v.isData real = true) : v.finite = v.mapReals finiteReal := by
  induction v, data using data_induction with
  | null | flag b | integer n | number x passed | text s => rfl
  | list items data ih =>
      rw [finite, mapReals, finiteItems_eq, mapRealsItems_eq]
      congr 1
      exact List.map_congr_left ih
  | map entries data ih =>
      rw [finite, mapReals, finiteEntries_eq, mapRealsEntries_eq]
      congr 1
      apply List.map_congr_left
      intro entry member
      rw [ih entry member]

theorem isData_mapReals {v : Value} (data : v.isData real = true) {passes : Binary64 → Bool}
    {change : Binary64 → Value} (changed : ∀ x, real x = true → (change x).isData passes = true) :
    (v.mapReals change).isData passes = true := by
  induction v, data using data_induction with
  | null | flag b | integer n | text s => rfl
  | number x passed => exact changed x passed
  | list items data ih =>
      rw [mapReals, isData, mapRealsItems_eq, itemsAreData_iff]
      intro w member
      obtain ⟨v, inside, rfl⟩ := List.mem_map.mp member
      exact ih v inside
  | map entries data ih =>
      rw [mapReals, isData, Bool.and_eq_true_iff, entriesAreData_iff]
      have distinct : Keyed.Distinct (mapRealsEntries change entries) := by
        rw [Keyed.Distinct, keys_mapRealsEntries]
        exact distinct_of_data data
      refine ⟨decide_eq_true distinct, ?_⟩
      rw [mapRealsEntries_eq]
      intro entry member
      obtain ⟨other, inside, rfl⟩ := List.mem_map.mp member
      exact ih other inside

theorem mapReals_mapReals {v : Value} (data : v.isData real = true) (first next : Binary64 → Value) :
    (v.mapReals first).mapReals next = v.mapReals fun x => (first x).mapReals next := by
  induction v, data using data_induction with
  | null | flag b | integer n | text s | number x passed => rfl
  | list items data ih =>
      simp only [mapReals, mapRealsItems_eq, List.map_map]
      congr 1
      exact List.map_congr_left ih
  | map entries data ih =>
      simp only [mapReals, mapRealsEntries_eq, List.map_map]
      congr 1
      apply List.map_congr_left
      intro entry member
      rw [← ih entry member]
      rfl

/-- Where there are no reals none are changed. -/
theorem mapReals_exact {v : Value} (data : v.isData (fun _ => false) = true)
    (change : Binary64 → Value) : v.mapReals change = v := by
  induction v, data using data_induction with
  | null | flag b | integer n | text s => rfl
  | number x passed => cases passed
  | list items data ih =>
      rw [mapReals, mapRealsItems_eq]
      congr 1
      exact map_fixed ih
  | map entries data ih =>
      rw [mapReals, mapRealsEntries_eq]
      congr 1
      exact map_fixed fun entry member => by rw [ih entry member]

theorem writable_mapReals {v : Value} (data : v.isData real = true) (writable : v.writable = true)
    {change : Binary64 → Value} (changed : ∀ x, (change x).writable = true) :
    (v.mapReals change).writable = true := by
  induction v, data using data_induction with
  | null | flag b | text s => rfl
  | integer n => exact writable
  | number x passed => exact changed x
  | list items data ih =>
      rw [Value.writable, writableItems_iff] at writable
      rw [mapReals, Value.writable, mapRealsItems_eq, writableItems_iff]
      intro w member
      obtain ⟨v, inside, rfl⟩ := List.mem_map.mp member
      exact ih v inside (writable v inside)
  | map entries data ih =>
      rw [Value.writable, writableEntries_iff] at writable
      rw [mapReals, Value.writable, mapRealsEntries_eq, writableEntries_iff]
      intro entry member
      obtain ⟨other, inside, rfl⟩ := List.mem_map.mp member
      exact ih other inside (writable other inside)

theorem within_mapReals {v : Value} (data : v.isData real = true) {levels : Nat}
    (inside : v.within levels = true) {change : Binary64 → Value}
    (changed : ∀ x levels, (change x).within (levels + 1) = true) :
    (v.mapReals change).within levels = true := by
  induction v, data using data_induction generalizing levels with
  | null | flag b | text s | integer n => exact inside
  | number x passed =>
      cases levels with
      | zero => cases inside
      | succ levels => exact changed x levels
  | list items data ih =>
      cases levels with
      | zero => cases inside
      | succ levels =>
          rw [within, withinItems_iff] at inside
          rw [mapReals, within, mapRealsItems_eq, withinItems_iff]
          intro w member
          obtain ⟨v, place, rfl⟩ := List.mem_map.mp member
          exact ih v place (inside v place)
  | map entries data ih =>
      cases levels with
      | zero => cases inside
      | succ levels =>
          rw [within, withinEntries_iff] at inside
          rw [mapReals, within, mapRealsEntries_eq, withinEntries_iff]
          intro entry member
          obtain ⟨other, place, rfl⟩ := List.mem_map.mp member
          exact ih other place (inside other place)

theorem within_mono {v : Value} (levels more : Nat) (data : v.isData real = true)
    (inside : v.within levels = true) (bound : levels ≤ more) : v.within more = true := by
  induction v, data using data_induction generalizing levels more with
  | null | flag b | text s | integer n | number x passed =>
      cases more with
      | zero =>
          rw [Nat.le_zero.mp bound] at inside
          cases inside
      | succ more => rfl
  | list items data ih =>
      cases levels with
      | zero => cases inside
      | succ levels =>
          cases more with
          | zero => omega
          | succ more =>
              rw [within, withinItems_iff] at inside ⊢
              exact fun v place => ih v place _ _ (inside v place) (by omega)
  | map entries data ih =>
      cases levels with
      | zero => cases inside
      | succ levels =>
          cases more with
          | zero => omega
          | succ more =>
              rw [within, withinEntries_iff] at inside ⊢
              exact fun entry place => ih entry place _ _ (inside entry place) (by omega)

end Value

end Lifecycle
