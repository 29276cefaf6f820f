import Lifecycle.Schema
/-!
Shapes that are built from other shapes. What was built lately is kept in stock, and a shape that allows
the same as one in stock is that one; what was not asked for in a while is dropped. -/

namespace Lifecycle

/-- What was made lately by what it was made for, the one asked for last first. -/
abbrev Recent (κ α : Type) := List (κ × α)

namespace Recent

variable {κ α : Type}

/-- How many things are kept. -/
def capacity : Nat := 128

/-- What was made for something alike, which then is the one asked for last. -/
def recalled? (alike : κ → Bool) (r : Recent κ α) : Option (α × Recent κ α) :=
  (r.find? fun entry => alike entry.1).map fun entry =>
    (entry.2, entry :: r.eraseP fun entry => alike entry.1)

def keep (key : κ) (a : α) (r : Recent κ α) : Recent κ α := ((key, a) :: r).take capacity

end Recent

/-- The two ways to ask for an optional shape. Asked for by name it is made as a choice between a shape
and nothing, and kept as both. -/
inductive OptionalWay where
  | named | chosen
  deriving DecidableEq, Repr

/-- The shapes in stock. A choice between texts is never taken from stock. -/
structure Stock where
  optionals : Recent (OptionalWay × Shape) Shape
  collections : Recent Shape Shape
  deriving Repr

namespace Stock

def empty : Stock := ⟨[], []⟩

def alike (way : OptionalWay) (inner : Shape) (key : OptionalWay × Shape) : Bool :=
  key.1 = way && inner.agrees key.2

/-- A shape or nothing; what is optional already stays as it is. -/
def orNothing : Shape → Shape
  | .optional inner => .optional inner
  | inner => .optional inner

def chosen (inner : Shape) : StateM Stock Shape := fun stock =>
  match stock.optionals.recalled? (alike .chosen inner) with
  | some (s, optionals) => (s, { stock with optionals })
  | none =>
    let s := orNothing inner
    (s, { stock with optionals := stock.optionals.keep (.chosen, inner) s })

def optional (inner : Shape) : StateM Stock Shape := fun stock =>
  match stock.optionals.recalled? (alike .named inner) with
  | some (s, optionals) => (s, { stock with optionals })
  | none =>
    let (s, stock) := chosen inner stock
    (s, { stock with optionals := stock.optionals.keep (.named, inner) s })

def collection (s : Shape) : StateM Stock Shape := fun stock =>
  match stock.collections.recalled? s.agrees with
  | some (s, collections) => (s, { stock with collections })
  | none => (s, { stock with collections := stock.collections.keep s s })

end Stock

/-- A shape as it is built with what is in stock, from the inside out. -/
def Shape.built : Shape → StateM Stock Shape
  | .optional inner => do Stock.optional (← built inner)
  | .list inner => do Stock.collection (.list (← built inner))
  | .map inner => do Stock.collection (.map (← built inner))
  | s => pure s

end Lifecycle
