import Lifecycle.Value.Basic
/-!
Places inside values, as the steps that lead to them. Everything on the way to a place must be there
for it to be changed; only the last step may name a new key of a map. A record keeps its fields. -/

namespace Lifecycle

/-- One step into a value. -/
inductive Step where
  | key (name : String)
  | index (n : Nat)
  deriving DecidableEq, Repr

namespace Value

/-- Changes what stands at a place; `none` from the change removes it. -/
def alter (change : Option Value → Option (Option Value)) : List Step → Value → Option Value
  | [], v => (change (some v)).join
  | [.key name], .map entries =>
    (change (Keyed.find? entries name)).map fun
      | some v => .map (Keyed.put entries name v)
      | none => .map (Keyed.erase entries name)
  | [.index n], .list items =>
    if n < items.length then
      (change items[n]?).map fun
        | some v => .list (items.set n v)
        | none => .list (items.eraseIdx n)
    else none
  | .key name :: rest, .map entries => do
    let inner ← Keyed.find? entries name
    return .map (Keyed.put entries name (← alter change rest inner))
  | .key name :: rest, .record kind fields => do
    let inner ← Keyed.find? fields name
    return .record kind (Keyed.put fields name (← alter change rest inner))
  | .index n :: rest, .list items => do
    let inner ← items[n]?
    return .list (items.set n (← alter change rest inner))
  | _, _ => none

def assign (v : Value) (place : List Step) (new : Value) : Option Value :=
  v.alter (fun _ => some (some new)) place

/-- Takes away what stands at a place, which must be there. -/
def removal (old : Option Value) : Option (Option Value) := old.map fun _ => none

/-- Adds an item to the list at a place. -/
def addition (item : Value) : Option Value → Option (Option Value)
  | some (.list items) => some (some (.list (items ++ [item])))
  | _ => none

def append (v : Value) (place : List Step) (item : Value) : Option Value :=
  v.alter (addition item) place

end Value

end Lifecycle
