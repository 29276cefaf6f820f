/-!
Tables that remember the order in which their keys came. Putting a known key replaces its entry
where it stands; a new key goes to the end. -/

namespace Lifecycle

abbrev Keyed (κ α : Type) := List (κ × α)

namespace Keyed

variable {κ α : Type} [DecidableEq κ]

def find? : Keyed κ α → κ → Option α
  | [], _ => none
  | (key, a) :: rest, k => if key = k then some a else find? rest k

def put : Keyed κ α → κ → α → Keyed κ α
  | [], k, a => [(k, a)]
  | (key, old) :: rest, k, a => if key = k then (key, a) :: rest else (key, old) :: put rest k a

def modify : Keyed κ α → κ → (α → α) → Keyed κ α
  | [], _, _ => []
  | (key, a) :: rest, k, f => if key = k then (key, f a) :: rest else (key, a) :: modify rest k f

def erase : Keyed κ α → κ → Keyed κ α
  | [], _ => []
  | (key, a) :: rest, k => if key = k then erase rest k else (key, a) :: erase rest k

def keys (table : Keyed κ α) : List κ := table.map (·.1)

def has (table : Keyed κ α) (k : κ) : Bool := (find? table k).isSome

def ofList (entries : List (κ × α)) : Keyed κ α :=
  entries.foldl (fun table entry => put table entry.1 entry.2) []

def Distinct (table : Keyed κ α) : Prop := (keys table).Nodup

instance (table : Keyed κ α) : Decidable (Distinct table) :=
  inferInstanceAs (Decidable (keys table).Nodup)

@[simp] theorem find?_nil (k : κ) : find? ([] : Keyed κ α) k = none := rfl

theorem find?_put (table : Keyed κ α) (k l : κ) (a : α) :
    find? (put table k a) l = if k = l then some a else find? table l := by
  induction table with
  | nil => simp [put, find?]
  | cons entry rest ih =>
    obtain ⟨key, old⟩ := entry
    by_cases same : key = k
    · subst same
      by_cases h : key = l <;> simp [put, find?, h]
    · by_cases h : key = l
      · subst h
        simp [put, find?, same, Ne.symm same]
      · simp [put, find?, same, h, ih]

omit [DecidableEq κ] in
@[simp] theorem keys_cons (entry : κ × α) (rest : Keyed κ α) :
    keys (entry :: rest) = entry.1 :: keys rest := rfl

theorem keys_put (table : Keyed κ α) (k : κ) (a : α) :
    keys (put table k a) = if k ∈ keys table then keys table else keys table ++ [k] := by
  induction table with
  | nil => simp [put, keys]
  | cons entry rest ih =>
    obtain ⟨key, old⟩ := entry
    by_cases same : key = k
    · simp [put, same]
    · by_cases h : k ∈ keys rest <;> simp [put, same, Ne.symm same, ih, h]

theorem find?_erase (table : Keyed κ α) (k : κ) : find? (erase table k) k = none := by
  induction table with
  | nil => rfl
  | cons entry rest ih =>
    obtain ⟨key, a⟩ := entry
    by_cases same : key = k <;> simp [erase, find?, same, ih]

theorem keys_modify (table : Keyed κ α) (k : κ) (f : α → α) :
    keys (modify table k f) = keys table := by
  induction table with
  | nil => rfl
  | cons entry rest ih =>
    obtain ⟨key, a⟩ := entry
    by_cases same : key = k <;> simp [modify, same, ih]

end Keyed

end Lifecycle
