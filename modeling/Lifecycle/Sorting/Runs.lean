import Lifecycle.Sorting.Merge
/-!
A stable sort whose comparisons may fail, and with the first that fails the whole. The items are taken as
runs that are in order already, short ones filled up; neighbouring runs are merged so that the merges
make a balanced tree. -/

namespace Lifecycle.Sorting

variable {α ε : Type}

/-- The items that keep on rising, or on falling, and the rest. -/
def climb (less : α → α → Except ε Bool) (falling : Bool) (last : α) :
    List α → Except ε (List α × List α)
  | [] => .ok ([], [])
  | a :: rest => do
    if (← less a last) = falling then
      let (more, rest) ← climb less falling a rest
      return (a :: more, rest)
    else return ([], a :: rest)

/-- Puts an item in its place in a run, after those that it equals. -/
def insert (less : α → α → Except ε Bool) (items : List α) (a : α) : Except ε (List α) := do
  let stays := passes (fun b => do return !(← less a b)) items.toArray
  return items.insertIdx (← bisect stays 0 items.length) a

/-- The run that a list begins with, turned upwards and filled up to a length, and what comes after. -/
def firstRun (less : α → α → Except ε Bool) (least : Nat) :
    List α → Except ε (List α × List α)
  | first :: second :: rest => do
    let falling ← less second first
    let (more, rest) ← climb less falling second rest
    let start := if falling then (first :: second :: more).reverse else first :: second :: more
    let wanted := least - start.length
    return (← (rest.take wanted).foldlM (insert less) start, rest.drop wanted)
  | short => .ok (short, [])

/-- How long runs have to be: a list of less than 64 is one run, of longer ones about the same part each,
between 32 and 64. -/
def leastRun (size : Nat) : Nat :=
  let part := Nat.pow 2 (size.log2 - 5)
  (size + part - 1) / part

/-- A run, where in the list it begins, and the level of the boundary behind it. -/
structure Run (α : Type) where
  items : List α
  start : Nat
  level : Nat
  deriving Repr

/-- The first binary digit, of at most `n`, in which two parts of twice a size differ. -/
def differingDigit (size : Nat) : Nat → Nat → Nat → Nat
  | 0, _, _ => 0
  | n + 1, low, high =>
    if size ≤ low then differingDigit size n (2 * (low - size)) (2 * (high - size)) + 1
    else if size ≤ high then 1
    else differingDigit size n (2 * low) (2 * high) + 1

/-- The level of the boundary between a run and one of a length after it: the depth at which halving the
whole list comes between their middles. -/
def boundaryLevel (size : Nat) (r : Run α) (length : Nat) : Nat :=
  let middle := 2 * r.start + r.items.length
  differingDigit size (size.log2 + 2) middle (middle + r.items.length + length)

/-- Runs that are still to be merged, the last first, and the patience for the next merge. -/
structure Pile (α : Type) where
  runs : List (Run α)
  patience : Nat
  deriving Repr

namespace Pile

variable (less : α → α → Except ε Bool)

/-- Merges the last two runs. -/
def mergeLast (p : Pile α) : Except ε (Pile α) := do
  match p.runs with
  | right :: left :: others =>
    let (items, patience) ← merge less p.patience left.items right.items
    return ⟨{ left with items } :: others, patience⟩
  | _ => return p

/-- Merges the two runs before the last. -/
def mergeInner (p : Pile α) : Except ε (Pile α) := do
  match p.runs with
  | last :: others =>
    let inner ← mergeLast less { p with runs := others }
    return { inner with runs := last :: inner.runs }
  | [] => return p

/-- Merges the last runs as long as the boundary between them lies deeper than a level; at most `n`
times. -/
def mergeDown (level : Nat) : Nat → Pile α → Except ε (Pile α)
  | 0, p => .ok p
  | n + 1, p =>
    match p.runs with
    | _ :: left :: _ =>
      if level < left.level then do mergeDown level n (← p.mergeLast less) else .ok p
    | _ => .ok p

/-- Puts a run on the pile, after the merges that its boundary asks for. -/
def add (size : Nat) (items : List α) (p : Pile α) : Except ε (Pile α) := do
  match p.runs with
  | [] => return { p with runs := [⟨items, 0, 0⟩] }
  | last :: _ =>
    let level := boundaryLevel size last items.length
    let p ← mergeDown less level p.runs.length p
    match p.runs with
    | [] => return p
    | last :: others =>
      let next : Run α := ⟨items, last.start + last.items.length, 0⟩
      return { p with runs := next :: { last with level } :: others }

/-- Merges all runs, in at most `n` merges; of three runs the shorter of the outer ones goes with the
inner one. -/
def collapse : Nat → Pile α → Except ε (Pile α)
  | 0, p => .ok p
  | n + 1, p =>
    match p.runs with
    | last :: _ :: first :: _ => do
      if first.items.length < last.items.length then collapse n (← p.mergeInner less)
      else collapse n (← p.mergeLast less)
    | _ => p.mergeLast less

/-- Piles up the runs of a list, of which there are at most `n`. -/
def fill (size : Nat) : Nat → List α → Pile α → Except ε (Pile α)
  | 0, _, p | _, [], p => .ok p
  | n + 1, items, p => do
    let (first, rest) ← firstRun less (leastRun size) items
    fill size n rest (← p.add less size first)

end Pile

/-- The items in order, those that are equal in the order in which they came. -/
def sort (less : α → α → Except ε Bool) (items : List α) : Except ε (List α) := do
  let filled ← Pile.fill less items.length items.length items ⟨[], Merging.longLeap⟩
  let merged ← filled.collapse less filled.runs.length
  return merged.runs.flatMap Run.items

end Lifecycle.Sorting
