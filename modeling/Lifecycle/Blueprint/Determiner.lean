import Lifecycle.Blueprint.Basic
/-! Choosing the event that a state asks for, by a function or by the branch that a value takes. -/

namespace Lifecycle

namespace Determiner

/-- A branch in one line; a function has none. -/
def text? : Determiner → Option String
  | .function _ => none
  | .branch source _ events =>
    let values := Text.quotedList (Text.sorted (Keyed.keys events))
    some s!"BranchDeterminer(from_state={Text.quoted source}, values={values})"

def choose : Determiner → Sight → Except Fault String
  | .function f, sight => f sight
  | .branch source discriminator events, sight => do
    let value ← discriminator sight
    match Keyed.find? events value with
    | some event => .ok event
    | none => .error (.unmatched source value (Text.sorted (Keyed.keys events)))

end Determiner

/-- The event to fire from a state. Failures of a transition kind pass; others are explained. -/
def Blueprint.determineEvent (b : Blueprint) (sight : Sight) (state : String) :
    Except Fault String :=
  match Keyed.find? b.determiners state with
  | none => .error (.noDeterminer state)
  | some determiner =>
    match determiner.choose sight with
    | .error fault =>
      if fault.isTransition then .error fault else .error (.undetermined state fault)
    | .ok event => if event = "" then .error (.noEvent state) else .ok event

end Lifecycle
