import Lifecycle.Sorting.Search
/-!
Merging two sorted runs into one; of equal items those of the left run come first. Items are taken one
by one until one run has been ahead for a while, and from then on in leaps, as long as leaps are long.
How long it takes until leaps are tried, the patience, goes from one merge to the next. -/

namespace Lifecycle.Sorting

variable {α ε : Type}

/-- The end of two runs at which their merging begins. -/
inductive Direction where
  | forward | backward
  deriving DecidableEq, Repr

/-- Two runs, each beginning with the item that would be taken next, and what was taken, the last item
first. -/
structure Merging (α : Type) where
  left : List α
  right : List α
  taken : List α
  deriving Repr

namespace Merging

def taking (left right : Nat) (m : Merging α) : Merging α where
  left := m.left.drop left
  right := m.right.drop right
  taken := (m.right.take right).reverse ++ ((m.left.take left).reverse ++ m.taken)

/-- Whether what is left needs no more comparing: one run is used up, or the other has only the item left
that is known to come last. -/
def isOver : Direction → Merging α → Bool
  | .forward, m => (m.left.drop 1).isEmpty || m.right.isEmpty
  | .backward, m => m.left.isEmpty || (m.right.drop 1).isEmpty

/-- What was taken and what is left, in order. -/
def result : Direction → Merging α → List α
  | .forward, m => m.taken.reverse ++ (m.right ++ m.left)
  | .backward, m => (m.left ++ m.right).reverse ++ m.taken

/-- Whether the next item is one of the left run. -/
def leftNext (less : α → α → Except ε Bool) (d : Direction) (m : Merging α) : Except ε Bool :=
  match m.left, m.right with
  | a :: _, b :: _ => (less b a).map fun before => if d = .forward then !before else before
  | _, _ => .ok false

/-- How many items from the next one on come before all others, where a test passes for those at the
front of their run. -/
def lead (test : α → Except ε Bool) : Direction → List α → Except ε Nat
  | .forward, items => gallop test items.toArray 0
  | .backward, items => do
    return items.length - (← gallop test items.reverse.toArray (items.length - 1))

def leftLead (less : α → α → Except ε Bool) (d : Direction) (m : Merging α) : Except ε Nat :=
  match m.right with
  | b :: _ => lead (fun a => do return !(← less b a)) d m.left
  | [] => .ok 0

def rightLead (less : α → α → Except ε Bool) (d : Direction) (m : Merging α) : Except ε Nat :=
  match m.left with
  | a :: _ => lead (less · a) d m.right
  | [] => .ok 0

/-- A leap in the left run and one in the right, each followed by the item that ended it, and the length
of the longer leap. -/
def leap (less : α → α → Except ε Bool) (d : Direction) (m : Merging α) :
    Except ε (Merging α × Nat) := do
  let n ← m.leftLead less d
  let m := m.taking n 0
  if m.isOver d then return (m, n)
  let m := m.taking 0 1
  if m.isOver d then return (m, n)
  let k ← m.rightLead less d
  let m := m.taking 0 k
  if m.isOver d then return (m, max n k)
  return (m.taking 1 0, max n k)

/-- How items are taken: one by one, with how often the left and the right run were ahead just now, or in
leaps. -/
inductive Pace where
  | steps (left right : Nat)
  | leaps
  deriving DecidableEq, Repr

/-- How long a leap has to be for the next to follow at once; also the patience to begin with. -/
def longLeap : Nat := 7

/-- Takes items until the merge is over, in at most `n` turns. Leaps that go well make for less patience,
those that do not for more. -/
def run (less : α → α → Except ε Bool) (d : Direction) :
    Nat → Pace → Nat → Merging α → Except ε (Merging α × Nat)
  | 0, _, patience, m => .ok (m, patience)
  | n + 1, pace, patience, m =>
    if m.isOver d then .ok (m, patience)
    else
      match pace with
      | .steps left right => do
        if ← m.leftNext less d then
          let pace := if patience ≤ left + 1 then .leaps else .steps (left + 1) 0
          run less d n pace patience (m.taking 1 0)
        else
          let pace := if patience ≤ right + 1 then .leaps else .steps 0 (right + 1)
          run less d n pace patience (m.taking 0 1)
      | .leaps => do
        let (m, length) ← m.leap less d
        if m.isOver d then return (m, patience)
        else if longLeap ≤ length then run less d n .leaps (max 1 (patience - 1)) m
        else run less d n (.steps 0 0) (patience + 1) m

end Merging

/-- Merges what is not in place already, from the end of the longer run, with the patience given; the
new run and the patience after it. -/
def mergeRest (less : α → α → Except ε Bool) (patience : Nat) (left right : List α) :
    Except ε (List α × Nat) := do
  let d := if left.length ≤ right.length then Direction.forward else .backward
  let start : Merging α := match d with
    | .forward => Merging.taking 0 1 ⟨left, right, []⟩
    | .backward => Merging.taking 1 0 ⟨left.reverse, right.reverse, []⟩
  let (m, patience) ← start.run less d (left.length + right.length) (.steps 0 0) patience
  return (m.result d, patience)

/-- Merges two runs. Items of the left run that come before all of the right one, and those of the right
one that come after all of the left, are in place already. -/
def merge (less : α → α → Except ε Bool) (patience : Nat) (left right : List α) :
    Except ε (List α × Nat) := do
  match right with
  | [] => return (left, patience)
  | b :: _ =>
    let k ← gallop (fun a => do return !(← less b a)) left.toArray 0
    match (left.drop k).getLast? with
    | none => return (left ++ right, patience)
    | some a =>
      let n ← gallop (less · a) right.toArray (right.length - 1)
      if n = 0 then return (left ++ right, patience)
      let (merged, patience) ← mergeRest less patience (left.drop k) (right.take n)
      return (left.take k ++ (merged ++ right.drop n), patience)

end Lifecycle.Sorting
