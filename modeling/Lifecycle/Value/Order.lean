import Lifecycle.Sorting.Runs
import Lifecycle.Value.Operation
/-!
Values in order. Numbers, texts and lists have an order each, and there is none between them; the
first pair without an order is a fault. -/

namespace Lifecycle.Value

open Decimal (Binary64)

def lessNumber : Int ⊕ Binary64 → Int ⊕ Binary64 → Bool
  | .inl m, .inl n => m < n
  | .inl n, .inr x => x.above n
  | .inr x, .inl n => x.below n
  | .inr x, .inr y => x.less y

def lessScalar (left right : Value) : Except Fault Bool :=
  match left.number?, right.number? with
  | some m, some n => .ok (lessNumber m n)
  | _, _ => .error (incomparable "<" left.kind right.kind)

mutual

def less (left right : Value) : Except Fault Bool :=
  match left with
  | .text s => match right with | .text t => .ok (s < t) | _ => lessScalar (.text s) right
  | .list vs => match right with | .list ws => lessItems vs ws | _ => lessScalar (.list vs) right
  | v => lessScalar v right

/-- The first pair of items that differ decides. -/
def lessItems (left right : List Value) : Except Fault Bool :=
  match left with
  | [] => .ok (!right.isEmpty)
  | v :: rest =>
    match right with
    | [] => .ok false
    | w :: others => if same v w then lessItems rest others else less v w

end

/-- The items of a list in order. -/
def sorted (items : List Value) : Except Fault (List Value) := Sorting.sort less items

/-- Texts, of which there must not be anything else. -/
def textsFrom (n : Nat) : List Value → Except Fault (List String)
  | [] => .ok []
  | .text s :: rest => (textsFrom (n + 1) rest).map (s :: ·)
  | v :: _ => .error (.badType s!"sequence item {n}: expected str instance, {v.kind} found")

/-- The texts that a value can be gone through by, in order. -/
def sortedTexts (v : Value) : Except Fault (List String) := do textsFrom 0 (← sorted (← v.elements))

end Lifecycle.Value
