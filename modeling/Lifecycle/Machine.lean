import Lifecycle.Blueprint.Basic
/-!
A machine: a project type standing in one of its states. It finds transitions in a table by state
and event. -/

namespace Lifecycle

structure Machine where
  blueprint : Blueprint
  state : String
  table : Keyed (String × String) Transition

namespace Machine

def tabulate (ts : List Transition) : Keyed (String × String) Transition :=
  Keyed.ofList (ts.map fun t => ((t.source, t.event), t))

def start (b : Blueprint) (state : String) : Machine := ⟨b, state, tabulate b.transitions⟩

/-- The same machine in another state. -/
def moved (m : Machine) (state : String) : Machine := { m with state }

/-- The transitions that leave the current state, as declared. -/
def transitions (m : Machine) : List Transition :=
  (m.table.filter fun entry => entry.1.1 = m.state).map (·.2)

def lookup (m : Machine) (event : String) : Option Transition :=
  Keyed.find? m.table (m.state, event)

/-- The transition that an event fires, which must be declared. -/
def transition (m : Machine) (event : String) : Except Fault Transition :=
  match m.lookup event with
  | some t => .ok t
  | none => .error (.notConfigured m.state event (m.transitions.map (·.event)))

/-- How a transition is named in faults. -/
def arrow (m : Machine) (t : Transition) : Arrow := ⟨m.state, t.target, t.event⟩

def sight (m : Machine) (d : Document) : Sight := ⟨d, .proper m.state⟩

/-- Whether a transition's guard lets it fire; without a guard it does. -/
def passes (m : Machine) (d : Document) (t : Transition) : Except Fault Bool :=
  match t.guard with
  | none => .ok true
  | some g =>
    match g.test (m.sight d) with
    | .ok passed => .ok passed
    | .error fault => .error (.guardRaised (m.arrow t) fault)

/-- What blocks a transition, if anything does. -/
def blockOf (m : Machine) (d : Document) (t : Transition) : Except Fault (Option String) :=
  (m.passes d t).map fun passed => if passed then none else some t.blockReason

def canFire (m : Machine) (d : Document) (event : String) : Except Fault Bool :=
  match m.lookup event with
  | some t => m.passes d t
  | none => .ok false

def blockedReason (m : Machine) (d : Document) (event : String) : Except Fault (Option String) := do
  m.blockOf d (← m.transition event)

/-- The events whose guards pass now. -/
def permittedEvents (m : Machine) (d : Document) : Except Fault (List String) := do
  return (← m.transitions.filterM (m.passes d)).map (·.event)

def outlook (m : Machine) (d : Document) (t : Transition) : Outlook :=
  ⟨t.event, t.target, t.description, m.blockOf d t⟩

def scene (m : Machine) (d : Document) : Scene :=
  ⟨m.sight d, some (m.transitions.map (m.outlook d))⟩

/-- The guidance for the current state; a state without a prompt has none. -/
def prompt (m : Machine) (d : Document) : Except Fault String :=
  match Keyed.find? m.blueprint.prompts m.state with
  | some write => write (m.scene d)
  | none => .ok ""

def text (m : Machine) : String :=
  s!"Machine(type={Text.quoted m.blueprint.name}, state={Text.quoted m.state})"

end Machine

end Lifecycle
