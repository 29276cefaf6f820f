import Lifecycle.Blueprint.Basic
import Lifecycle.Document.Reader
/-! Giving a new project its phases. -/

namespace Lifecycle

/-- Creates the named phases; inputs are looked up by phase name. -/
def Initializer.phases (names : List String) : Initializer := fun now inputs =>
  names.forM fun name => do
    let source ← Attempt.ofExcept (given inputs name)
    let artifacts ← source.mapM fun v => Attempt.ofExcept (Artifact.read now v).result
    let d ← get
    let phases ← Attempt.ofExcept (d.phases.put name (Phase.fresh now artifacts))
    set { d with phases }
where
  given (inputs : Value) (name : String) : Except Fault (List Value) :=
    if !inputs.truthy then .ok []
    else match inputs with
      | .map entries =>
        match Keyed.find? entries name with
        | some v => v.elements
        | none => .ok []
      | other => .error (other.lacks "get")

end Lifecycle
