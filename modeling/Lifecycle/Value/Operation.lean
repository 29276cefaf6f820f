import Lifecycle.Fault
/-!
What is done with a value whose kind is not known beforehand: it is asked for a part, gone through,
counted with, changed. What its kind does not allow is a fault that names the kind. -/

namespace Lifecycle.Value

/-- What the kind of a value is called in faults. -/
def kind : Value → String
  | .null => "NoneType"
  | .flag _ => "bool"
  | .integer _ => "int"
  | .real _ => "float"
  | .text _ => "str"
  | .list _ => "list"
  | .map _ => "dict"
  | .live => "object"
  | .moment _ => "datetime.datetime"
  | .record kind _ => kind.text

/-- The fault of asking a value for a part that its kind does not have. -/
def lacks (v : Value) (part : String) : Fault :=
  .noAttribute s!"'{v.kind}' object has no attribute '{part}'"

/-- What a value can be gone through by, if it can: its items, its keys or its characters. -/
def elements? : Value → Option (List Value)
  | .list items => some items
  | .map entries => some ((Keyed.keys entries).map .text)
  | .text s => some (s.toList.map fun c => .text (String.singleton c))
  | _ => none

def elements (v : Value) : Except Fault (List Value) :=
  match v.elements? with
  | some items => .ok items
  | none => .error (.badType s!"'{v.kind}' object is not iterable")

/-- From the last to the first. -/
def elementsBackward (v : Value) : Except Fault (List Value) :=
  match v.elements? with
  | some items => .ok items.reverse
  | none => .error (.badType s!"'{v.kind}' object is not reversible")

def size (v : Value) : Except Fault Nat :=
  match v.elements? with
  | some items => .ok items.length
  | none => .error (.badType s!"object of type '{v.kind}' has no len()")

/-- Whether a text occurs inside another. -/
def occurs (part : List Char) : List Char → Bool
  | [] => part.isEmpty
  | c :: rest => part.isPrefixOf (c :: rest) || occurs part rest

/-- Whether a name is among what a value holds: its keys, its items, or a part of its text. -/
def lists (v : Value) (name : String) : Except Fault Bool :=
  match v with
  | .map entries => .ok (Keyed.has entries name)
  | .list items => .ok (items.any fun item => item.same (.text name))
  | .text s => .ok (occurs name.toList s.toList)
  | .record _ _ => .ok false
  | v => .error (.badType s!"argument of type '{v.kind}' is not iterable")

def incomparable (sign : String) (left right : String) : Fault :=
  .badType s!"'{sign}' not supported between instances of '{left}' and '{right}'"

/-- Whether a value is more than a whole number. -/
def exceeds (v : Value) (n : Int) : Except Fault Bool :=
  match v.number? with
  | some (.inl m) => .ok (n < m)
  | some (.inr x) => .ok (x.above n)
  | none => .error (incomparable ">" v.kind "int")

/-- A value, or a whole number where that is more. -/
def atLeast (v : Value) (n : Int) : Except Fault Value :=
  match v.number? with
  | some (.inl m) => .ok (if m < n then .integer n else v)
  | some (.inr x) => .ok (if x.below n then .integer n else v)
  | none => .error (incomparable ">" "int" v.kind)

/-- One more. -/
def successor (v : Value) : Except Fault Value :=
  match v, v.number? with
  | _, some (.inl n) => .ok (.integer (n + 1))
  | _, some (.inr x) => .ok (.real (x.plus 1))
  | .text _, none => .error (.badType "can only concatenate str (not \"int\") to str")
  | .list _, none => .error (.badType "'int' object is not iterable")
  | _, none => .error (.badType s!"unsupported operand type(s) for +=: '{v.kind}' and 'int'")

/-- Lists, maps and records cannot be keys of a table. -/
def mustBeKey (v : Value) : Except Fault Unit :=
  match v with
  | .list _ | .map _ | .record _ _ => .error (.badType s!"unhashable type: '{v.kind}'")
  | _ => .ok ()

/-- The fault of putting an entry into what is no map. -/
def refusesEntry : Value → Fault
  | .list _ => .badType "list indices must be integers or slices, not str"
  | v => .badType s!"'{v.kind}' object does not support item assignment"

/-- The fault of taking an entry out of what is no map. -/
def refusesTaking : Value → Fault
  | .list _ => .badType "pop expected at most 1 argument, got 2"
  | v => v.lacks "pop"

end Lifecycle.Value
