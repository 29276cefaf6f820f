import Lifecycle.Value.Operation
/-!
What stands in the places of a document. Usually it is what belongs there, but any value can be put
there unchecked, and stays until the place changes; asked for a part that it does not have, it
fails. -/

namespace Lifecycle

/-- What is written as a value of its own, and can be told from it. -/
class Plain (α : Type) where
  toValue : α → Value
  ofValue? : Value → Option α
  toValue_of : ∀ {v : Value} {a : α}, ofValue? v = some a → toValue a = v

inductive Slot (α : Type) where
  /-- What belongs there. -/
  | proper (a : α)
  /-- A value that was put there unchecked. -/
  | stray (v : Value)
  deriving Repr

namespace Slot

variable {α : Type}

def map (change : α → α) : Slot α → Slot α
  | .proper a => .proper (change a)
  | .stray v => .stray v

/-- A value is taken for what belongs there, if it can be. -/
def ofValue [Plain α] (v : Value) : Slot α :=
  match Plain.ofValue? v with
  | some a => .proper a
  | none => .stray v

def toValue [Plain α] : Slot α → Value
  | .proper a => Plain.toValue a
  | .stray v => v

@[simp] theorem toValue_ofValue [Plain α] (v : Value) : (ofValue v : Slot α).toValue = v := by
  unfold ofValue
  split
  · next a found => exact Plain.toValue_of found
  · rfl

def display [Plain α] (s : Slot α) : String := s.toValue.display

def shown [Plain α] (s : Slot α) : String := s.toValue.shown

def truthy [Plain α] (s : Slot α) : Bool := s.toValue.truthy

def holds [DecidableEq α] (s : Slot α) (a : α) : Bool :=
  match s with
  | .proper b => b = a
  | .stray _ => false

/-- What stands there, asked for one of its parts. -/
def having (part : String) : Slot α → Except Fault α
  | .proper a => .ok a
  | .stray v => .error (v.lacks part)

/-- The first that passes a test; each is asked for the part that the test looks at first. -/
def find? (part : String) (test : α → Except Fault Bool) : List (Slot α) → Except Fault (Option α)
  | [] => .ok none
  | s :: rest => do
    let a ← s.having part
    if ← test a then return some a else find? part test rest

def any (part : String) (test : α → Except Fault Bool) (list : List (Slot α)) :
    Except Fault Bool :=
  (find? part test list).map Option.isSome

def all (part : String) (test : α → Except Fault Bool) (list : List (Slot α)) :
    Except Fault Bool :=
  (find? part (fun a => (test a).map not) list).map Option.isNone

def filter (part : String) (test : α → Except Fault Bool) : List (Slot α) → Except Fault (List α)
  | [] => .ok []
  | s :: rest => do
    let a ← s.having part
    let kept ← test a
    let others ← filter part test rest
    return if kept then a :: others else others

/-- Changes the first that passes a test. -/
def changeFirst (test : α → Bool) (change : α → α) : List (Slot α) → List (Slot α)
  | [] => []
  | .proper a :: rest =>
    if test a then .proper (change a) :: rest else .proper a :: changeFirst test change rest
  | s :: rest => s :: changeFirst test change rest

end Slot

/-- A place for a list of things, each in a place of its own. -/
abbrev Many (α : Type) := Slot (List (Slot α))

namespace Many

variable {α : Type}

def ofList (list : List α) : Many α := .proper (list.map .proper)

def none : Many α := .proper []

def elements : Many α → Except Fault (List (Slot α))
  | .proper list => .ok list
  | .stray v => v.elements.map (·.map .stray)

def elementsBackward : Many α → Except Fault (List (Slot α))
  | .proper list => .ok list.reverse
  | .stray v => v.elementsBackward.map (·.map .stray)

def size : Many α → Except Fault Nat
  | .proper list => .ok list.length
  | .stray v => v.size

/-- Whether there is anything in the list, or what stands for it counts as true. -/
def filled : Many α → Bool
  | .proper list => !list.isEmpty
  | .stray v => v.truthy

def add (a : α) : Many α → Except Fault (Many α)
  | .proper list => .ok (.proper (list ++ [.proper a]))
  | .stray v => .error (v.lacks "append")

end Many

/-- A place for a table of things, each in a place of its own. -/
abbrev Table (α : Type) := Slot (Keyed String (Slot α))

namespace Table

variable {α : Type}

def empty : Table α := .proper []

def entries : Table α → Except Fault (List (String × Slot α))
  | .proper entries => .ok entries
  | .stray v => .error (v.lacks "items")

/-- Whether there is anything in the table, or what stands for it counts as true. -/
def filled : Table α → Bool
  | .proper entries => !entries.isEmpty
  | .stray v => v.truthy

/-- Whether there is an entry of that name. -/
def lists (name : String) : Table α → Except Fault Bool
  | .proper entries => .ok (Keyed.has entries name)
  | .stray v => v.lists name

def put (name : String) (a : α) : Table α → Except Fault (Table α)
  | .proper entries => .ok (.proper (Keyed.put entries name (.proper a)))
  | .stray v => .error v.refusesEntry

/-- Changes what stands under a name, if it is what belongs there. -/
def modify (name : String) (change : α → α) : Table α → Table α :=
  Slot.map fun entries => Keyed.modify entries name (Slot.map change)

end Table

namespace Slot

/-- The entry of that name, or what is given for the lack of one. -/
def entryOr (key : String) (missing : Value) : Slot Metadata → Except Fault Value
  | .proper m => .ok ((Keyed.find? m key).getD missing)
  | .stray v => .error (v.lacks "get")

def entry (key : String) (m : Slot Metadata) : Except Fault Value := m.entryOr key .null

def putEntry (key : String) (v : Value) : Slot Metadata → Except Fault (Slot Metadata)
  | .proper m => .ok (.proper (Keyed.put m key v))
  | .stray other => .error other.refusesEntry

def takeEntry (key : String) : Slot Metadata → Except Fault (Slot Metadata)
  | .proper m => .ok (.proper (Keyed.erase m key))
  | .stray other => .error other.refusesTaking

end Slot

instance : Plain String where
  toValue := .text
  ofValue?
    | .text s => some s
    | _ => none
  toValue_of := by rintro (_ | _) a found <;> simp_all

instance : Plain Bool where
  toValue := .flag
  ofValue?
    | .flag b => some b
    | _ => none
  toValue_of := by rintro (_ | _) a found <;> simp_all

instance : Plain Int where
  toValue := .integer
  ofValue?
    | .integer n => some n
    | _ => none
  toValue_of := by rintro (_ | _) a found <;> simp_all

instance : Plain Metadata where
  toValue := .map
  ofValue?
    | .map entries => some entries
    | _ => none
  toValue_of := by rintro (_ | _) a found <;> simp_all

instance {α : Type} [Plain α] : Plain (List (Slot α)) where
  toValue list := .list (list.map Slot.toValue)
  ofValue?
    | .list items => some (items.map Slot.ofValue)
    | _ => none
  toValue_of := by
    intro v a found
    split at found
    · cases found
      simp [Function.comp_def]
    · contradiction

instance {α : Type} [Plain α] : Plain (Keyed String (Slot α)) where
  toValue table := .map (table.map fun entry => (entry.1, entry.2.toValue))
  ofValue?
    | .map entries => some (entries.map fun entry => (entry.1, .ofValue entry.2))
    | _ => none
  toValue_of := by
    intro v a found
    split at found
    · cases found
      simp [Function.comp_def]
    · contradiction

end Lifecycle
