import Lifecycle.Decimal.Written
import Lifecycle.Fault
/-!
What of a value can be written down or copied: what no text can hold, and how deep a copy may go. -/

namespace Lifecycle.Value

mutual

/-- Whether a text can hold all of a value: whole numbers have a bound. -/
def writable : Value → Bool
  | .live => false
  | .integer n => n.natAbs < Nat.pow 10 Decimal.digitLimit
  | .list items => writableItems items
  | .map entries | .record _ entries => writableEntries entries
  | _ => true

def writableItems : List Value → Bool
  | [] => true
  | v :: rest => writable v && writableItems rest

def writableEntries : List (String × Value) → Bool
  | [] => true
  | (_, v) :: rest => writable v && writableEntries rest

end

mutual

/-- Puts null for infinities and for what is not a number. -/
def finite : Value → Value
  | .real x => if x.isFinite then .real x else .null
  | .list items => .list (finiteItems items)
  | .map entries => .map (finiteEntries entries)
  | .record kind fields => .record kind (finiteEntries fields)
  | v => v

def finiteItems : List Value → List Value
  | [] => []
  | v :: rest => finite v :: finiteItems rest

def finiteEntries : List (String × Value) → List (String × Value)
  | [] => []
  | (key, v) :: rest => (key, finite v) :: finiteEntries rest

end

mutual

/-- How many steps inside each other copying a value takes: two for every level, and twice that for a
record. -/
def copyDepth : Value → Nat
  | .list items => 2 + copyDepthItems items
  | .map entries => 2 + copyDepthEntries entries
  | .record _ fields => 4 + copyDepthEntries fields
  | _ => 2

def copyDepthItems : List Value → Nat
  | [] => 1
  | v :: rest => max (copyDepth v) (copyDepthItems rest)

def copyDepthEntries : List (String × Value) → Nat
  | [] => 1
  | (_, v) :: rest => max (copyDepth v) (copyDepthEntries rest)

end

/-- How many steps inside each other there may be in copying a value. -/
def copyLimit : Nat := 990

/-- Whether a value can be copied. -/
def checkCopy (v : Value) : Except Fault Unit :=
  if v.copyDepth ≤ copyLimit then .ok ()
  else .error .tooManySteps

end Lifecycle.Value
