/-!
Searching among sorted items for the place up to which a test passes. A test may fail, and then its
failure is that of the search; so it is part of what a search does which items it tests, and when. -/

namespace Lifecycle.Sorting

variable {α ε : Type}

/-- Whether the item at a place passes a test; beyond the end none does. -/
def passes (test : α → Except ε Bool) (items : Array α) (place : Nat) : Except ε Bool :=
  match items[place]? with
  | some a => test a
  | none => .ok false

/-- The first place from `low` on that does not pass, `high` at the latest, found by halving. -/
def bisect (test : Nat → Except ε Bool) (low high : Nat) : Except ε Nat :=
  if low < high then do
    let middle := low + (high - low) / 2
    if ← test middle then bisect test (middle + 1) high else bisect test low middle
  else .ok high
termination_by high - low

/-- Strides, each about twice as far as the one before, as long as they pass and stay below a limit:
the last that passed and the one after it. -/
def stride (test : Nat → Except ε Bool) (limit last next : Nat) : Except ε (Nat × Nat) :=
  if next < limit then do
    if ← test next then stride test limit next (2 * next + 1) else return (last, next)
  else .ok (last, limit)
termination_by limit - next

/-- How many items pass, where they all come before those that do not. The search strides away from a
hint, and halves what lies between its last two strides. -/
def gallop (test : α → Except ε Bool) (items : Array α) (hint : Nat) : Except ε Nat := do
  let test := passes test items
  if ← test hint then
    let (last, next) ← stride (fun n => test (hint + n)) (items.size - hint) 0 1
    bisect test (hint + last + 1) (hint + next)
  else
    let (last, next) ← stride (fun n => do return !(← test (hint - n))) (hint + 1) 0 1
    bisect test (hint + 1 - next) (hint - last)

end Lifecycle.Sorting
