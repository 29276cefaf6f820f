import Lifecycle.Blueprint.Basic
/-! Project types by the name they are registered under. -/

namespace Lifecycle

abbrev Registry := Keyed String Blueprint

namespace Registry

/-- A name is given only once. -/
def register (r : Registry) (name : String) (b : Blueprint) : Except Fault Registry :=
  if Keyed.has r name then .error (.alreadyRegistered name) else .ok (Keyed.put r name b)

def get? (r : Registry) (name : String) : Option Blueprint := Keyed.find? r name

def names (r : Registry) : List String := Text.sorted (Keyed.keys r)

def get (r : Registry) (name : String) : Except Fault Blueprint :=
  match r.get? name with
  | some b => .ok b
  | none => .error (.unknownType name r.names)

end Registry

end Lifecycle
