import Lifecycle.Document.Record
import Lifecycle.Value.Place
/-!
Editing documents by place, without validation. Any value can be put where something stands: it is
taken for what belongs there if it can be, else it is a stray. A record has its fields and no others;
lists keep what they hold in order and take records of any kind, and tables and maps take new keys. -/

namespace Lifecycle

/-- What can be added to a list as a record. -/
inductive Item where
  | artifact (a : Artifact)
  | task (t : Task)

def Item.toValue : Item → Value
  | .artifact a => a.toValue
  | .task t => t.toValue

/-- What is done at a place. -/
inductive Change where
  | put (v : Value)
  | take
  | add (item : Item)

namespace Change

/-- A change of a value, or of a place in a map where there is none yet. -/
def onValue : Change → Option Value → Option (Option Value)
  | .put v, _ => some (some v)
  | .take, old => Value.removal old
  | .add item, old => Value.addition item.toValue old

end Change

/-- What can be changed at the places inside it. -/
class Editable (α : Type) extends Plain α where
  alter : Change → Step → List Step → α → Option α
  add : Item → α → Option α := fun _ _ => none

/-- What is no more than a value changes as one. -/
def Plain.alter {α : Type} [Plain α] (c : Change) (step : Step) (rest : List Step) (a : α) :
    Option α :=
  ((toValue a).alter c.onValue (step :: rest)).bind ofValue?

namespace Slot

variable {α : Type}

/-- Changes a place, or one inside of what stands there. -/
def alter [Editable α] (c : Change) (path : List Step) (s : Slot α) : Option (Slot α) :=
  match path, c, s with
  | [], .put v, _ => some (.ofValue v)
  | [], .take, _ => none
  | [], .add item, .proper a => (Editable.add item a).map .proper
  | step :: rest, _, .proper a => (Editable.alter c step rest a).map .proper
  | path, _, .stray v => (v.alter c.onValue path).map .stray

end Slot

instance : Editable String := { alter := Plain.alter }

instance : Editable Bool := { alter := Plain.alter }

instance : Editable Int := { alter := Plain.alter }

instance : Editable PhaseStatus := { alter := Plain.alter }

instance : Editable TaskStatus := { alter := Plain.alter }

instance : Editable Timestamp := { alter := Plain.alter }

instance : Editable (Option Timestamp) := { alter := Plain.alter }

instance : Editable Metadata := { alter := Plain.alter }

/-- A record that can be an item of a list. -/
class Listed (α : Type) extends Editable α where
  ofItem : Item → Slot α

instance {α : Type} [Listed α] : Editable (List (Slot α)) where
  alter c step rest list :=
    match step, c, rest with
    | .index n, .take, [] => if n < list.length then some (list.eraseIdx n) else none
    | .index n, c, rest => do
      let s ← list[n]?
      return list.set n (← s.alter c rest)
    | .key _, _, _ => none
  add item list := some (list ++ [Listed.ofItem item])

instance {α : Type} [Editable α] : Editable (Keyed String (Slot α)) where
  alter c step rest table :=
    match step, c, rest with
    | .key name, .take, [] => if Keyed.has table name then some (Keyed.erase table name) else none
    | .key name, .put v, [] => some (Keyed.put table name (.ofValue v))
    | .key name, c, rest => do
      let s ← Keyed.find? table name
      return Keyed.put table name (← s.alter c rest)
    | .index _, _, _ => none

instance : Listed Artifact where
  alter c step rest a :=
    match step with
    | .key "type" => return { a with type := ← a.type.alter c rest }
    | .key "path" => return { a with path := ← a.path.alter c rest }
    | .key "approved" => return { a with approved := ← a.approved.alter c rest }
    | .key "created_at" => return { a with createdAt := ← a.createdAt.alter c rest }
    | .key "metadata" => return { a with metadata := ← a.metadata.alter c rest }
    | _ => none
  ofItem
    | .artifact a => .proper a
    | item => .stray item.toValue

instance : Listed Task where
  alter c step rest t :=
    match step with
    | .key "id" => return { t with id := ← t.id.alter c rest }
    | .key "name" => return { t with name := ← t.name.alter c rest }
    | .key "phase" => return { t with phase := ← t.phase.alter c rest }
    | .key "status" => return { t with status := ← t.status.alter c rest }
    | .key "created_at" => return { t with createdAt := ← t.createdAt.alter c rest }
    | .key "updated_at" => return { t with updatedAt := ← t.updatedAt.alter c rest }
    | .key "started_at" => return { t with startedAt := ← t.startedAt.alter c rest }
    | .key "completed_at" => return { t with completedAt := ← t.completedAt.alter c rest }
    | .key "iteration" => return { t with iteration := ← t.iteration.alter c rest }
    | .key "assigned_agent" => return { t with assignedAgent := ← t.assignedAgent.alter c rest }
    | .key "inputs" => return { t with inputs := ← t.inputs.alter c rest }
    | .key "outputs" => return { t with outputs := ← t.outputs.alter c rest }
    | .key "metadata" => return { t with metadata := ← t.metadata.alter c rest }
    | _ => none
  ofItem
    | .task t => .proper t
    | item => .stray item.toValue

instance : Editable Phase where
  alter c step rest p :=
    match step with
    | .key "status" => return { p with status := ← p.status.alter c rest }
    | .key "enabled" => return { p with enabled := ← p.enabled.alter c rest }
    | .key "created_at" => return { p with createdAt := ← p.createdAt.alter c rest }
    | .key "started_at" => return { p with startedAt := ← p.startedAt.alter c rest }
    | .key "completed_at" => return { p with completedAt := ← p.completedAt.alter c rest }
    | .key "failed_at" => return { p with failedAt := ← p.failedAt.alter c rest }
    | .key "iteration" => return { p with iteration := ← p.iteration.alter c rest }
    | .key "inputs" => return { p with inputs := ← p.inputs.alter c rest }
    | .key "outputs" => return { p with outputs := ← p.outputs.alter c rest }
    | .key "tasks" => return { p with tasks := ← p.tasks.alter c rest }
    | .key "metadata" => return { p with metadata := ← p.metadata.alter c rest }
    | _ => none

instance : Editable Statechart where
  alter c step rest s :=
    match step with
    | .key "current_state" => return { s with current := ← s.current.alter c rest }
    | .key "updated_at" => return { s with updatedAt := ← s.updatedAt.alter c rest }
    | _ => none

namespace Document

/-- Changes one place of a document, if there is such a place. -/
def alter (c : Change) (path : List Step) (d : Document) : Option Document :=
  match path with
  | .key "name" :: rest => return { d with name := ← d.name.alter c rest }
  | .key "type" :: rest => return { d with type := ← d.type.alter c rest }
  | .key "branch" :: rest => return { d with branch := ← d.branch.alter c rest }
  | .key "description" :: rest => return { d with description := ← d.description.alter c rest }
  | .key "created_at" :: rest => return { d with createdAt := ← d.createdAt.alter c rest }
  | .key "updated_at" :: rest => return { d with updatedAt := ← d.updatedAt.alter c rest }
  | .key "phases" :: rest => return { d with phases := ← d.phases.alter c rest }
  | .key "statechart" :: rest => return { d with statechart := ← d.statechart.alter c rest }
  | .key "agent_sessions" :: rest => return { d with agentSessions := ← d.agentSessions.alter c rest }
  | _ => none

def assign (d : Document) (path : List Step) (v : Value) : Option Document := d.alter (.put v) path

def remove (d : Document) (path : List Step) : Option Document := d.alter .take path

def append (d : Document) (path : List Step) (item : Item) : Option Document :=
  d.alter (.add item) path

end Document

end Lifecycle
