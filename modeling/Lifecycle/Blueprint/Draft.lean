import Lifecycle.Blueprint.Initializer
import Lifecycle.Blueprint.Walk
/-!
Drafting a project type. Declarations accumulate in call order and nothing is checked before
`Draft.build`, which accepts a draft or says what is wrong with it. -/

namespace Lifecycle

/-- A transition or a branch, in the order of the calls. -/
inductive Entry where
  | transition (t : Transition)
  | branch (b : Branch)

structure Draft where
  name : String
  phases : Keyed String PhasePlan
  initial : Option String
  entries : List Entry
  determiners : Keyed String (Sight → Except Fault String)
  prompts : Keyed String Prompt
  orchestrator : Option Prompt
  initializer : Option Initializer

abbrev PhaseOption := PhasePlan → PhasePlan

abbrev TransitionOption := Transition → Transition

abbrev BranchOption := Branch → Branch

namespace PhaseOption

def startingAt (state : String) : PhaseOption := fun p => { p with start := some state }

def endingAt (state : String) : PhaseOption := fun p => { p with finish := some state }

def inputs (types : List String) : PhaseOption := fun p => { p with inputTypes := types }

def outputs (types : List String) : PhaseOption := fun p => { p with outputTypes := types }

def tasks : PhaseOption := fun p => { p with hasTasks := true }

def schema (s : Schema) : PhaseOption := fun p => { p with schema := some s }

end PhaseOption

namespace TransitionOption

def guard (description : String) (test : Sight → Except Fault Bool) : TransitionOption :=
  fun t => { t with guard := some ⟨description, test⟩ }

/-- A guard that only looks at the document. -/
def guardOn (description : String) (test : Document → Except Fault Bool) : TransitionOption :=
  guard description fun sight => test sight.document

def onEntry (action : Action) : TransitionOption := fun t => { t with onEntry := some action }

def onExit (action : Action) : TransitionOption := fun t => { t with onExit := some action }

def description (text : String) : TransitionOption := fun t => { t with description := text }

def failing (phase : String) : TransitionOption := fun t => { t with failedPhase := some phase }

end TransitionOption

/-- Later options of the same kind win. -/
def Transition.make (source target event : String) (options : List TransitionOption) : Transition :=
  options.foldl (fun t option => option t) (.plain source target event)

namespace BranchOption

def on (discriminator : Sight → Except Fault String) : BranchOption :=
  fun b => { b with discriminator := some discriminator }

/-- A value that comes again replaces its earlier route. Whatever the options do, a route leaves the
state of its branch. -/
def route (value event target : String) (options : List TransitionOption) : BranchOption :=
  fun b =>
    let made := Transition.make b.source target event options
    { b with routes := Keyed.put b.routes value { made with source := b.source } }

end BranchOption

namespace Draft

def empty (name : String) : Draft := ⟨name, [], none, [], [], [], none, none⟩

/-- Declares a phase, or adds to its declaration. -/
def phase (name : String) (options : List PhaseOption) (d : Draft) : Draft :=
  let plan := (Keyed.find? d.phases name).getD (.named name)
  { d with phases := Keyed.put d.phases name (options.foldl (fun p option => option p) plan) }

def startAt (state : String) (d : Draft) : Draft := { d with initial := some state }

def transition (source target event : String) (options : List TransitionOption) (d : Draft) :
    Draft :=
  { d with entries := d.entries ++ [.transition (.make source target event options)] }

def branch (source : String) (options : List BranchOption) (d : Draft) : Draft :=
  let declared := options.foldl (fun b option => option b) (⟨source, none, []⟩ : Branch)
  { d with entries := d.entries ++ [.branch declared] }

def onAdvance (state : String) (choose : Sight → Except Fault String) (d : Draft) : Draft :=
  { d with determiners := Keyed.put d.determiners state choose }

/-- From this state it is always the same event. -/
def alwaysAdvance (state event : String) (d : Draft) : Draft :=
  d.onAdvance state fun _ => .ok event

def prompt (state : String) (p : Prompt) (d : Draft) : Draft :=
  { d with prompts := Keyed.put d.prompts state p }

def orchestratorPrompt (p : Prompt) (d : Draft) : Draft := { d with orchestrator := some p }

def initializeWith (i : Initializer) (d : Draft) : Draft := { d with initializer := some i }

/-- The transitions of a branch, sorted by the value that leads to them. -/
def routesOf (b : Branch) : List Transition :=
  b.values.filterMap fun value => Keyed.find? b.routes value

def branches (d : Draft) : List Branch :=
  d.entries.filterMap fun
    | .branch b => some b
    | .transition _ => none

/-- Every transition, those of branches included, in the order of the calls. -/
def transitions (d : Draft) : List Transition :=
  d.entries.flatMap fun
    | .transition t => [t]
    | .branch b => routesOf b

/-- How a branch chooses the event: its discriminator gives the value of a route. -/
def branchDeterminer? (b : Branch) : Option Determiner :=
  b.discriminator.map fun discriminator =>
    .branch b.source discriminator (b.routes.map fun entry => (entry.1, entry.2.event))

/-- Adds the way in which a branch chooses its event. -/
def addBranch (table : Keyed String Determiner) (b : Branch) : Keyed String Determiner :=
  match branchDeterminer? b with
  | some determiner => Keyed.put table b.source determiner
  | none => table

/-- The type that the calls describe, unchecked. -/
def blueprint (d : Draft) (initial : String) : Blueprint where
  name := d.name
  initial := initial
  phases := d.phases
  transitions := d.transitions
  determiners :=
    d.branches.foldl addBranch (d.determiners.map fun entry => (entry.1, .function entry.2))
  prompts := d.prompts
  branches := Keyed.ofList (d.branches.map fun b => (b.source, b))
  orchestrator := d.orchestrator
  initializer := d.initializer

def fault {α : Type} (d : Draft) (text : String) : Except Fault α :=
  .error (.configuration s!"project type {d.name}: {text}")

def branchFault {α : Type} (d : Draft) (b : Branch) (text : String) : Except Fault α :=
  d.fault s!"branch from state {b.source}: {text}"

/-- Whether a branch may stand after branches from the states `seen`. -/
def checkBranch (d : Draft) (seen : List String) (b : Branch) : Except Fault Unit :=
  if b.discriminator.isNone then d.branchFault b "no discriminator provided, use branch_on()"
  else if b.routes.isEmpty then d.branchFault b "no branch paths provided, use when()"
  else if Keyed.has b.routes "" then
    d.branchFault b "empty string is not allowed as a discriminator value"
  else if b.source ∈ seen then d.branchFault b "state already has a branch"
  else if Keyed.has d.determiners b.source then
    d.branchFault b "state also has an on_advance determiner, use one or the other"
  else .ok ()

def checkBranches (d : Draft) (seen : List String) : List Branch → Except Fault Unit
  | [] => .ok ()
  | b :: rest => do
    d.checkBranch seen b
    d.checkBranches (b.source :: seen) rest

/-- The states that transitions lead to from a given one, that one included. -/
def reachable (ts : List Transition) (initial : String) : List String :=
  (Walk.start initial).finish ts

/-- No event twice from one state, and no transition out of a state that cannot be reached. -/
def checkTransitions (d : Draft) (initial : String) (reached : List String) :
    List Transition → List (String × String) → Except Fault Unit
  | [], _ => .ok ()
  | t :: rest, declared =>
    if (t.source, t.event) ∈ declared then
      d.fault s!"event {Text.quoted t.event} declared more than once from state {t.source}"
    else if t.source ∉ reached then
      d.fault (s!"transition {t.source} -> {t.target} via {Text.quoted t.event} leaves state " ++
        s!"{t.source}, which is not reachable from the initial state {initial}")
    else d.checkTransitions initial reached rest ((t.source, t.event) :: declared)

def build (d : Draft) : Except Fault Blueprint :=
  match d.initial with
  | none | some "" => d.fault "initial state not set"
  | some initial => do
    d.checkBranches [] d.branches
    d.checkTransitions initial (reachable d.transitions initial) d.transitions []
    return d.blueprint initial

end Draft

end Lifecycle
