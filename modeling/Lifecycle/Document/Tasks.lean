import Lifecycle.Document.Phases
/-!
Questions about the tasks of a phase, and tasks that are linked to an artifact: completing such a
task approves the output that it names. -/

namespace Lifecycle

def Task.isCompleted (t : Task) : Bool := t.status.holds .completed

namespace Document

/-- Whether no task is open any more and at least one was completed. -/
def resolvedWithOutput (d : Document) (phase : String) : Except Fault Bool := do
  let tasks ← d.tasks phase
  if tasks.isEmpty then return false
  else if ← Slot.all "is_terminal" (fun t => .ok t.isOver) tasks then
    Slot.any "status" (fun t => .ok t.isCompleted) tasks
  else return false

/-- Whether there are tasks and all are completed; abandoned ones do not count. -/
def allTasksCompleted (d : Document) (phase : String) : Except Fault Bool := do
  let tasks ← d.tasks phase
  if tasks.isEmpty then return false
  else Slot.all "status" (fun t => .ok t.isCompleted) tasks

end Document

/-- The path of the artifact that a task names in its metadata. -/
def Task.artifactPath? (t : Task) : Except Fault (Option String) := do
  match ← t.metadata.entry "artifact_path" with
  | .text path => return if path = "" then none else some path
  | _ => return none

/-- The output that a task of the phase is linked to. -/
def Document.linkedArtifact (d : Document) (phase task : String) : Except Fault Artifact := do
  let p ← d.phase phase
  match ← Slot.find? "id" (fun t => .ok (t.id.holds task)) (← p.tasks.elements) with
  | none => throw (.notFound s!"task {task} not found in phase {phase}")
  | some t =>
    match ← t.artifactPath? with
    | none =>
      throw (.invalid ⟨some phase, s!"task {task} has no artifact_path in metadata; " ++
        "link an artifact before completing it"⟩)
    | some path =>
      match ← Slot.find? "path" (fun a => .ok (a.path.holds path)) (← p.outputs.elements) with
      | some a => return a
      | none =>
        throw (.notFound s!"artifact not found at {path}; add it before completing task {task}")

/-- Completes a task of the phase and approves an output. -/
def Phase.settle (task path : String) (p : Phase) : Phase :=
  { p with
    tasks := p.tasks.map (Slot.changeFirst (·.id.holds task) fun t =>
      { t with status := .proper .completed })
    outputs := p.outputs.map (Slot.changeFirst (·.path.holds path) fun a =>
      { a with approved := .proper true }) }

/-- Completes a task and approves the output that it is linked to; a broken link changes nothing. -/
def Edit.completeLinkedTask (phase task : String) : Edit Artifact := do
  let a ← Attempt.ofExcept ((← get).linkedArtifact phase task)
  Edit.changePhase phase fun p => .ok (p.settle task a.path.display)
  return { a with approved := .proper true }

end Lifecycle
