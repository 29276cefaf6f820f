import Lifecycle.Blueprint.Draft
import Lifecycle.Declared.Action
import Lifecycle.Declared.Metadata
import Lifecycle.Prompt
/-!
Project types declared as data: a list of calls on a draft, each a list whose first item names the
call. The sections of prompts are declared in the same way. -/

namespace Lifecycle.Declared

def artifactSection (title phase side : String) (showStatus : Bool) : Prompt.Section :=
  Prompt.about fun d => do
    let p ← d.phase phase
    Prompt.artifacts title showStatus (if side = "inputs" then p.inputs else p.outputs)

def promptSection (w : Vocabulary) (s : Value) : Prompt.Section :=
  let one := s.textAt 1
  match s.textAt 0 with
  | "text" => Prompt.fixed one
  | "raise" => fun _ => .error (w.fault one (s.textAt 2))
  | "header" => Prompt.opening
  | "phases" => Prompt.about Prompt.phases
  | "next" => Prompt.steps
  | "tasks" => Prompt.about fun d => do Prompt.tasks (← d.tasks one)
  | "artifacts" => artifactSection one (s.textAt 2) (s.textAt 3) (s.item 4).asFlag
  | _ => fun _ => .ok none

def prompt (w : Vocabulary) (sections : Value) : Prompt :=
  Prompt.ofSections (sections.items.map (promptSection w))

def phaseOption (w : Vocabulary) (o : Value) : StateM Stock PhaseOption := do
  let types := o.texts.drop 1
  match o.textAt 0 with
  | "start" => return .startingAt (o.textAt 1)
  | "end" => return .endingAt (o.textAt 1)
  | "inputs" => return .inputs types
  | "outputs" => return .outputs types
  | "tasks" => return .tasks
  | "schema" => return .schema (← schema w (o.item 1))
  | _ => return id

def transitionOption (w : Vocabulary) (o : Value) : TransitionOption :=
  match o.textAt 0 with
  | "guard" => .guard (o.textAt 1) (testOf w (o.item 2))
  | "on_entry" => .onEntry (actions w (o.item 1))
  | "on_exit" => .onExit (actions w (o.item 1))
  | "description" => .description (o.textAt 1)
  | "failed_phase" => .failing (o.textAt 1)
  | _ => id

def transitionOptions (w : Vocabulary) (v : Value) : List TransitionOption :=
  v.items.map (transitionOption w)

def branchOption (w : Vocabulary) (o : Value) : BranchOption :=
  match o.textAt 0 with
  | "branch_on" => .on (nameOf w (o.item 1))
  | "when" => .route (o.textAt 1) (o.textAt 2) (o.textAt 3) (transitionOptions w (o.item 4))
  | _ => id

def initializer (w : Vocabulary) (v : Value) : Initializer :=
  match v.textAt 0 with
  | "phases" => .phases (v.item 1).texts
  | _ => fun _ _ => throw (w.fault (v.textAt 1) (v.textAt 2))

/-- One call on a draft; calls that are not known leave it alone. -/
def call (w : Vocabulary) (d : Draft) (c : Value) : StateM Stock Draft := do
  let one := c.textAt 1
  match c.textAt 0 with
  | "phase" => return d.phase one (← (c.item 2).items.mapM (phaseOption w))
  | "initial" => return d.startAt one
  | "transition" =>
    return d.transition one (c.textAt 2) (c.textAt 3) (transitionOptions w (c.item 4))
  | "branch" => return d.branch one ((c.item 2).items.map (branchOption w))
  | "on_advance" => return d.onAdvance one (nameOf w (c.item 2))
  | "prompt" => return d.prompt one (prompt w (c.item 2))
  | "orchestrator" => return d.orchestratorPrompt (prompt w (c.item 1))
  | "initializer" => return d.initializeWith (initializer w (c.item 1))
  | _ => return d

/-- The type that a list of calls describes. -/
def blueprint (w : Vocabulary) (name : String) (calls : List Value) : Attempt Stock Blueprint := do
  let d ← (calls.foldlM (call w) (Draft.empty name) : StateM Stock Draft)
  Attempt.ofExcept d.build

end Lifecycle.Declared
