import Lifecycle.Document.Record
import Lifecycle.Value.Writing
/-!
What guards ask of a document's phases, and what actions do to them. Questions about a phase that
is not there have an answer, changes to it fail; and a place where something stands that does not
belong there fails whoever asks it for its parts. -/

namespace Lifecycle

def Artifact.isApproved (a : Artifact) : Bool := a.approved.truthy

namespace Phase

/-- Only a pending phase starts. -/
def start (now : Timestamp) (p : Phase) : Phase :=
  if p.status.holds .pending then
    { p with status := .proper .inProgress, startedAt := .proper (some now) }
  else p

/-- A failed phase stays failed. -/
def complete (now : Timestamp) (p : Phase) : Phase :=
  if p.status.holds .failed then p
  else { p with status := .proper .completed, completedAt := .proper (some now) }

def fail (now : Timestamp) (p : Phase) : Phase :=
  { p with status := .proper .failed, failedAt := .proper (some now) }

def reopen (now : Timestamp) (p : Phase) : Phase :=
  { p with
    status := .proper .inProgress
    startedAt := .proper (some now)
    completedAt := .proper none
    failedAt := .proper none }

def iterate (p : Phase) : Except Fault Phase := do
  return { p with iteration := .ofValue (← p.iteration.toValue.successor) }

/-- The newest output of a type that satisfies a test. -/
def newestOutput? (p : Phase) (type : String) (test : Artifact → Except Fault Bool) :
    Except Fault (Option Artifact) := do
  Slot.find? "type" (fun a => if a.type.holds type then test a else .ok false)
    (← p.outputs.elementsBackward)

end Phase

namespace Document

/-- The phase of that name, if there is one; null counts as none. -/
def phase? (d : Document) (name : String) : Except Fault (Option Phase) := do
  match Keyed.find? (← d.phases.having "get") name with
  | none | some (.stray .null) => return none
  | some s => (s.having "status").map some

def phase (d : Document) (name : String) : Except Fault Phase := do
  match ← d.phase? name with
  | some p => return p
  | none => throw (.notFound s!"phase {name} not found")

def modifyPhase (d : Document) (name : String) (change : Phase → Phase) : Document :=
  { d with phases := d.phases.modify name change }

/-- Asks a phase; one that is not there has the answer given. -/
def askPhase {α : Type} (d : Document) (name : String) (missing : α)
    (question : Phase → Except Fault α) : Except Fault α := do
  match ← d.phase? name with
  | some p => question p
  | none => return missing

def outputApproved (d : Document) (phase type : String) : Except Fault Bool :=
  d.askPhase phase false fun p => do
    Slot.any "type" (fun a => .ok (a.type.holds type && a.isApproved)) (← p.outputs.elements)

/-- Whether metadata holds the flag true, not merely something that counts as true. -/
def metadataFlag (d : Document) (phase key : String) : Except Fault Bool :=
  d.askPhase phase false fun p => do
    match ← p.metadata.entry key with
    | .flag b => return b
    | _ => return false

/-- Whether there are tasks and each is completed or abandoned. -/
def tasksOver (d : Document) (phase : String) : Except Fault Bool :=
  d.askPhase phase false fun p => do
    if p.tasks.filled then Slot.all "is_terminal" (fun t => .ok t.isOver) (← p.tasks.elements)
    else return false

def newestOutput? (d : Document) (phase type : String) : Except Fault (Option Artifact) :=
  d.askPhase phase none fun p => p.newestOutput? type fun _ => .ok true

def newestApprovedOutput? (d : Document) (phase type : String) : Except Fault (Option Artifact) :=
  d.askPhase phase none fun p => p.newestOutput? type fun a => .ok a.isApproved

def tasks (d : Document) (phase : String) : Except Fault (List (Slot Task)) :=
  d.askPhase phase [] fun p => p.tasks.elements

end Document

/-- A change of the document by itself; what was changed before a failure stays changed. -/
abbrev Edit (α : Type) := Attempt Document α

namespace Edit

/-- The phase of that name, which must be there. -/
def phase (name : String) : Edit Phase := fun d => (d.phase name, d)

/-- Changes a phase, which must be there; a change that fails leaves it as it was. -/
def changePhase (name : String) (change : Phase → Except Fault Phase) : Edit Unit := do
  let changed ← Attempt.ofExcept (change (← phase name))
  modify fun d => d.modifyPhase name fun _ => changed

def startPhase (now : Timestamp) (name : String) : Edit Unit :=
  changePhase name fun p => .ok (p.start now)

def completePhase (now : Timestamp) (name : String) : Edit Unit :=
  changePhase name fun p => .ok (p.complete now)

def failPhase (now : Timestamp) (name : String) : Edit Unit :=
  changePhase name fun p => .ok (p.fail now)

def reopenPhase (now : Timestamp) (name : String) : Edit Unit :=
  changePhase name fun p => .ok (p.reopen now)

/-- Makes an edit for each of the named phases that is there. -/
def whereThere (edit : String → Edit Unit) (names : List String) : Edit Unit :=
  names.forM fun name => do
    if ← Attempt.ofExcept ((← get).phases.lists name) then edit name

/-- Starts those of the named phases that are there. -/
def startPhases (now : Timestamp) (names : List String) : Edit Unit :=
  whereThere (startPhase now) names

/-- Counts another iteration. -/
def iteratePhase (name : String) : Edit (Slot Int) := do
  changePhase name Phase.iterate
  return (← phase name).iteration

def putMetadata (name key : String) (v : Value) : Edit Unit :=
  changePhase name fun p => do return { p with metadata := ← p.metadata.putEntry key v }

def takeMetadata (name key : String) : Edit Unit :=
  changePhase name fun p => do return { p with metadata := ← p.metadata.takeEntry key }

def addOutput (name : String) (a : Artifact) : Edit Unit :=
  changePhase name fun p => do return { p with outputs := ← p.outputs.add a }

/-- Copies the newest output of that type that passes the test into another phase's inputs. -/
def copyOutput (source target type : String) (test : Artifact → Except Fault Bool) :
    Edit Artifact := do
  let origin ← phase source
  let _ ← phase target
  match ← Attempt.ofExcept (origin.newestOutput? type test) with
  | some a =>
    Attempt.ofExcept a.toValue.checkCopy
    changePhase target fun p => do return { p with inputs := ← p.inputs.add a }
    return a
  | none =>
    throw (.notFound s!"no matching artifact of type {type} found in {source} outputs")

end Edit

end Lifecycle
