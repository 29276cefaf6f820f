import Lifecycle.Text.Order
/-!
How alike two texts are. The longest run of characters that both have is matched first, then what
stands before it in both and what stands behind it. -/

namespace Lifecycle.Text

/-- How many characters two texts begin with alike. -/
def commonStart : List Char → List Char → Nat
  | c :: left, d :: right => if c = d then commonStart left right + 1 else 0
  | _, _ => 0

/-- A run of characters that two texts share, and where it begins in each. -/
structure Run where
  left : Nat
  right : Nat
  size : Nat
  deriving DecidableEq, Repr

def runs (left right : List Char) : List Run :=
  (List.range left.length).flatMap fun i =>
    (List.range right.length).map fun j => ⟨i, j, commonStart (left.drop i) (right.drop j)⟩

/-- Of runs of one length the first in the left text counts, then the first in the right. -/
def longestRun (left right : List Char) : Run :=
  (runs left right).foldl (fun best r => if best.size < r.size then r else best) ⟨0, 0, 0⟩

/-- How many characters are matched. -/
def matched (left right : List Char) : Nat :=
  match longestRun left right with
  | ⟨i, j, size⟩ =>
    if 0 < size ∧ i < left.length then
      matched (left.take i) (right.take j) + size +
        matched (left.drop (i + size)) (right.drop (j + size))
    else 0
termination_by left.length
decreasing_by all_goals grind

/-- Matched characters against all characters of both texts. -/
structure Likeness where
  common : Nat
  total : Nat
  deriving DecidableEq, Repr

def likeness (left right : String) : Likeness :=
  ⟨matched left.toList right.toList, left.length + right.length⟩

/-- Twice the matched characters make up three fifths of all. -/
def Likeness.isClose (l : Likeness) : Bool := 3 * l.total ≤ 10 * l.common

def Likeness.exceeds (l m : Likeness) : Bool := m.common * l.total < l.common * m.total

/-- The most names that are proposed for one. -/
def proposalLimit : Nat := 3

/-- Those names that are closest to a text, of equally close ones the later in order; all are given
in order. -/
def proposals (text : String) (names : List String) : List String :=
  let close := names.filter fun name => (likeness name text).isClose
  let ranked := close.mergeSort fun a b =>
    (likeness a text).exceeds (likeness b text) ||
      (!(likeness b text).exceeds (likeness a text) && decide (b ≤ a))
  sorted (ranked.take proposalLimit)

end Lifecycle.Text
