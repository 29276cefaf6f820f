import Lifecycle.Project.Storing
/-!
Moving a project and keeping its storage in step. Every transition that fires is stored before the
call returns; the one into the state without a project removes what is stored. If storing fails the
project has moved all the same, which `Fault.unsaved` reports, and `Desk.keep` may be tried again. -/

namespace Lifecycle

/-- A transition from the current state and whether it may fire. -/
structure Discovery where
  event : String
  target : String
  description : String
  guardDescription : String
  blockedReason : Option String
  deriving DecidableEq, Repr

def Discovery.permitted (o : Discovery) : Bool := o.blockedReason.isNone

namespace Edit

/-- Ends a phase that stops with a transition: it fails if the transition says so. -/
def finishPhase (now : Timestamp) (failing : Option String) (name : String) : Edit Unit :=
  if failing = some name then failPhase now name else completePhase now name

/-- Brings the statuses of phases up to date after a transition: those that end where it came from are
over, those that begin where it went have started. A transition to where it came from changes none. -/
def afterTransition (now : Timestamp) (b : Blueprint) (source : String) (t : Transition) :
    Edit Unit := do
  if source ≠ t.target then
    whereThere (finishPhase now t.failedPhase) (b.phasesEndingAt source)
    startPhases now (b.phasesStartingAt t.target)

end Edit

namespace Project

def discover (p : Project) : Except Fault (List Discovery) :=
  p.machine.transitions.mapM fun t => do
    return ⟨t.event, t.target, t.description, t.guardDescription,
      ← p.machine.blockOf p.document t⟩

/-- What firing an event would do now. -/
def dryRun (p : Project) (event : String) : Except Fault Move := do
  let t ← p.machine.transition event
  let reason ← p.machine.blockOf p.document t
  return ⟨p.state, t.target, event, t.description, false, reason.isNone, reason⟩

end Project

/-- A command to move a project or to look where it could go. -/
structure Order where
  event : Option String
  list : Bool
  dryRun : Bool
  deriving DecidableEq, Repr

/-- What a command comes to. -/
inductive Report where
  | discoveries (list : List Discovery)
  | move (m : Move)

namespace Desk

variable {σ : Type} [Backend σ]

/-- Stores the project as it is; after the end of its lifecycle nothing stays stored. -/
def keep (now : Timestamp) : Attempt (Desk σ) Unit := do
  if (← get).project.state = noProject then
    if ← onStore Backend.holds then onStore Backend.delete
  else save now

/-- Stores the project after a move and reports a failure to do so together with the move. -/
def persist (now : Timestamp) (m : Move) : Attempt (Desk σ) Unit :=
  Attempt.rethrow
    (fun fault => if fault.isStorage || fault.isValidation then .unsaved m fault else fault)
    (keep now)

/-- Fires an event, brings the phases up to date and stores the project. -/
def fire (now : Timestamp) (event : String) : Attempt (Desk σ) Move := do
  let source := (← get).project.state
  let t ← onProject (Project.fire now event)
  let b := (← get).project.blueprint
  onProject (Project.edit (Edit.afterTransition now b source t))
  let m : Move := ⟨source, t.target, t.event, t.description, true, true, none⟩
  persist now m
  return m

/-- Fires the event that the current state asks for. -/
def advance (now : Timestamp) : Attempt (Desk σ) Move := do
  let event ← Attempt.ofExcept (← get).project.determineEvent
  fire now event

def run (now : Timestamp) (o : Order) : Attempt (Desk σ) Report :=
  match o with
  | ⟨_, true, true⟩ => throw (.usage "cannot use --list and --dry-run together")
  | ⟨some _, true, false⟩ => throw (.usage "cannot specify event argument with --list flag")
  | ⟨none, false, true⟩ => throw (.usage "--dry-run requires an event argument")
  | ⟨none, true, false⟩ => do
    return .discoveries (← Attempt.ofExcept (← get).project.discover)
  | ⟨some event, false, true⟩ => do
    return .move (← Attempt.ofExcept ((← get).project.dryRun event))
  | ⟨some event, false, false⟩ => do return .move (← fire now event)
  | ⟨none, false, false⟩ => do return .move (← advance now)

end Desk

end Lifecycle
