import Lifecycle.Blueprint.Transition
import Lifecycle.Schema
import Lifecycle.Text.Order
/-!
A project type: its phases, its transitions, how the event to fire is chosen and what is said in
each state. -/

namespace Lifecycle

/-- A state whose event follows from a value: each value leads along its own transition. -/
structure Branch where
  source : String
  discriminator : Option (Sight → Except Fault String)
  routes : Keyed String Transition

def Branch.values (b : Branch) : List String := Text.sorted (Keyed.keys b.routes)

/-- How the event to fire from a state is chosen. -/
inductive Determiner where
  | function (choose : Sight → Except Fault String)
  | branch (source : String) (discriminator : Sight → Except Fault String)
      (events : Keyed String String)

/-- What a phase may hold, and the states in which it begins and ends. No listed artifact types
means that all are allowed. -/
structure PhasePlan where
  name : String
  start : Option String
  finish : Option String
  inputTypes : List String
  outputTypes : List String
  hasTasks : Bool
  schema : Option Schema

def PhasePlan.named (name : String) : PhasePlan := ⟨name, none, none, [], [], false, none⟩

/-- A transition that leaves the current state, as prompts show it. -/
structure Outlook where
  event : String
  target : String
  description : String
  blockedReason : Except Fault (Option String)

/-- What prompts are written from; without a machine there are no outlooks. -/
structure Scene where
  sight : Sight
  outlooks : Option (List Outlook)

abbrev Prompt := Scene → Except Fault String

/-- Fills in the phases of a new project from the inputs it is given. -/
abbrev Initializer := Timestamp → Value → Edit Unit

structure Blueprint where
  name : String
  initial : String
  phases : Keyed String PhasePlan
  transitions : List Transition
  determiners : Keyed String Determiner
  prompts : Keyed String Prompt
  branches : Keyed String Branch
  orchestrator : Option Prompt
  initializer : Option Initializer

namespace Blueprint

def phase? (b : Blueprint) (name : String) : Option PhasePlan := Keyed.find? b.phases name

/-- Every state that the type mentions, the initial one first. -/
def states (b : Blueprint) : List String :=
  Text.distinct (b.initial :: b.transitions.flatMap fun t => [t.source, t.target])

def transitionsFrom (b : Blueprint) (state : String) : List Transition :=
  b.transitions.filter fun t => t.source = state

def findTransition? (b : Blueprint) (state event : String) : Option Transition :=
  b.transitions.find? fun t => t.source = state && t.event = event

def getTransition? (b : Blueprint) (source target event : String) : Option Transition :=
  (b.findTransition? source event).filter fun t => t.target = target

def phasesWhere (b : Blueprint) (test : PhasePlan → Bool) : List String :=
  (b.phases.filter fun entry => test entry.2).map (·.1)

def phasesStartingAt (b : Blueprint) (state : String) : List String :=
  b.phasesWhere fun plan => plan.start = some state

def phasesEndingAt (b : Blueprint) (state : String) : List String :=
  b.phasesWhere fun plan => plan.finish = some state

/-- The first phase that starts or ends at a state. -/
def phaseForState? (b : Blueprint) (state : String) : Option String :=
  (b.phasesWhere fun plan => plan.start = some state || plan.finish = some state).head?

def taskPhases (b : Blueprint) : List String := Text.sorted (b.phasesWhere (·.hasTasks))

def phaseHasTasks (b : Blueprint) (phase : String) : Bool :=
  match b.phase? phase with
  | some plan => plan.hasTasks
  | none => false

/-- The phase that new tasks should go to: one that has tasks and starts or ends here, else the
first by name that has tasks. -/
def defaultTaskPhase? (b : Blueprint) (state : String) : Option String :=
  let here := b.phasesWhere fun plan =>
    plan.hasTasks && (plan.start = some state || plan.finish = some state)
  match here.head? with
  | some phase => some phase
  | none => b.taskPhases.head?

def startsAt (b : Blueprint) (phase state : String) : Bool :=
  match b.phase? phase with
  | some plan => plan.start = some state
  | none => false

def endsAt (b : Blueprint) (phase state : String) : Bool :=
  match b.phase? phase with
  | some plan => plan.finish = some state
  | none => false

/-- A type in one line. -/
def text (b : Blueprint) : String :=
  let phases := Text.quotedList (Keyed.keys b.phases)
  s!"ProjectTypeConfig(name={Text.quoted b.name}, initial_state={Text.quoted b.initial}, " ++
    s!"phases={phases}, transitions={b.transitions.length})"

end Blueprint

end Lifecycle
