import Lifecycle.Blueprint.Determiner
import Lifecycle.Machine
/-!
A live project: a document and the machine that moves it. Firing runs the exit action in the source
state and the entry action in the target state; a failing action leaves the machine where it was,
but what actions did to the document stays. -/

namespace Lifecycle

structure Project where
  document : Document
  machine : Machine
  /-- Lines that actions left for whoever runs the machine. -/
  journal : List String

namespace Document

/-- A document as it reads in a line, with the state that its project is in. -/
def textAt (d : Document) (current : Slot String) : String :=
  s!"Project(name={d.name.shown}, type={d.type.shown}, current_state={current.shown})"

/-- The state that was noted last. -/
def current (d : Document) : Except Fault (Slot String) := do
  return (← d.statechart.having "current_state").current

/-- Notes the machine's state, and when it was noted if it is news. -/
def sync (now : Timestamp) (state : String) (d : Document) : Except Fault Document := do
  if (← d.current).holds state then return d
  else return { d with statechart := .proper (.noted state now) }

end Document

namespace Project

/-- A machine for a document, in the state given. -/
def start (b : Blueprint) (d : Document) (state : String) : Project := ⟨d, .start b state, []⟩

/-- A machine for a document, in the state noted there, or at the beginning if none is. -/
def resume (b : Blueprint) (d : Document) : Except Fault Project := do
  let noted ← d.current
  return .start b d (if noted.truthy then noted.display else b.initial)

def state (p : Project) : String := p.machine.state

def blueprint (p : Project) : Blueprint := p.machine.blueprint

def sight (p : Project) : Sight := p.machine.sight p.document

def text (p : Project) : String := p.document.textAt (.proper p.state)

def edit (change : Edit Unit) : Attempt Project Unit :=
  Attempt.focus Project.document (fun document p => { p with document }) change

/-- Brings the document up to date with the machine. -/
def sync (now : Timestamp) : Attempt Project Unit := do
  let p ← get
  let document ← Attempt.ofExcept (p.document.sync now p.state)
  set { p with document }

/-- Runs an action on the document, in the state that the machine is in. -/
def act (now : Timestamp) (action : Action) : Attempt Project Unit := fun p =>
  let (outcome, piece) := action ⟨now, .proper p.state⟩ ⟨p.document, p.journal⟩
  (outcome, { p with document := piece.document, journal := piece.journal })

/-- Runs an action if there is one and renames its failure. -/
def actIfAny (now : Timestamp) (wrap : Fault → Fault) : Option Action → Attempt Project Unit
  | none => pure ()
  | some action => Attempt.rethrow wrap (act now action)

def moveTo (state : String) : Attempt Project Unit :=
  modify fun p => { p with machine := p.machine.moved state }

/-- Enters the target; if the entry action fails the machine goes back. -/
def enter (now : Timestamp) (source : String) (t : Transition) : Attempt Project Unit := do
  moveTo t.target
  try actIfAny now (.entryAction ⟨source, t.target, t.event⟩) t.onEntry
  catch fault =>
    moveTo source
    throw fault

/-- Fires an event from the current state. -/
def fire (now : Timestamp) (event : String) : Attempt Project Transition := do
  let p ← get
  let t ← Attempt.ofExcept (p.machine.transition event)
  let passed ← Attempt.ofExcept (p.machine.passes p.document t)
  if passed then
    actIfAny now (.exitAction (p.machine.arrow t)) t.onExit
    enter now p.state t
    return t
  else throw (.blocked (p.machine.arrow t) t.blockReason)

/-- The prompt that introduces the project as a whole. -/
def orchestratorPrompt (p : Project) : Except Fault String :=
  match p.blueprint.orchestrator with
  | some write => write (p.machine.scene p.document)
  | none => .ok ""

def determineEvent (p : Project) : Except Fault String :=
  p.blueprint.determineEvent p.sight p.state

end Project

end Lifecycle
