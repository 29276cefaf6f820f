import Lifecycle.Project.Basic
/-! A project at a glance: where it stands, how far its phases are, and which events may fire. -/

namespace Lifecycle

structure PhaseOverview where
  name : String
  status : Slot PhaseStatus
  iteration : Slot Int
  inputs : Nat
  outputs : Nat
  tasks : Nat
  tasksDone : Nat
  deriving Repr

structure Overview where
  name : Slot String
  type : Slot String
  branch : Slot String
  description : Slot String
  current : Slot String
  phases : List PhaseOverview
  permitted : List String
  deriving Repr

def Phase.overview (name : String) (p : Phase) : Except Fault PhaseOverview := do
  let inputs ← p.inputs.size
  let outputs ← p.outputs.size
  let tasks ← p.tasks.size
  let done ← Slot.filter "is_terminal" (fun t => .ok t.isOver) (← p.tasks.elements)
  return ⟨name, p.status, p.iteration, inputs, outputs, tasks, done.length⟩

/-- The overview of every phase. -/
def Document.phaseOverviews (d : Document) : Except Fault (List PhaseOverview) := do
  (← d.phases.entries).mapM fun entry => do (← entry.2.having "status").overview entry.1

/-- An overview without a machine: nothing is permitted. -/
def Document.overview (d : Document) : Except Fault Overview := do
  return ⟨d.name, d.type, d.branch, d.description, ← d.current, ← d.phaseOverviews, []⟩

def Project.overview (p : Project) : Except Fault Overview := do
  let d := p.document
  let phases ← d.phaseOverviews
  let permitted ← p.machine.permittedEvents d
  return ⟨d.name, d.type, d.branch, d.description, .proper p.state, phases, permitted⟩

def PhaseOverview.toValue (p : PhaseOverview) : Value := .map [
  ("name", .text p.name),
  ("status", p.status.toValue),
  ("iteration", p.iteration.toValue),
  ("inputs", .integer p.inputs),
  ("outputs", .integer p.outputs),
  ("tasks", .integer p.tasks),
  ("tasks_done", .integer p.tasksDone)]

def Overview.toValue (o : Overview) : Value := .map [
  ("name", o.name.toValue),
  ("type", o.type.toValue),
  ("branch", o.branch.toValue),
  ("description", o.description.toValue),
  ("current_state", o.current.toValue),
  ("phases", .list (o.phases.map PhaseOverview.toValue)),
  ("permitted_events", .list (o.permitted.map Value.text))]

end Lifecycle
