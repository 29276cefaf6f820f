import Lifecycle.Document.Slot
import Lifecycle.Timestamp.Basic
/-!
The stored document of a project: its phases with their artifacts and tasks, and where its machine
stands. -/

namespace Lifecycle

/-- Where a phase stands. -/
inductive PhaseStatus where
  | pending | inProgress | completed | failed | skipped
  deriving DecidableEq, Repr

namespace PhaseStatus

def text : PhaseStatus → String
  | .pending => "pending"
  | .inProgress => "in_progress"
  | .completed => "completed"
  | .failed => "failed"
  | .skipped => "skipped"

def listed : List PhaseStatus := [.pending, .inProgress, .completed, .failed, .skipped]

def ofText? (text : String) : Option PhaseStatus := listed.find? fun status => status.text = text

theorem ofText?_text (status : PhaseStatus) : ofText? status.text = some status := by
  cases status <;> rfl

theorem text_of_ofText? {text : String} {status : PhaseStatus} (found : ofText? text = some status) :
    status.text = text := by
  simpa using List.find?_some found

end PhaseStatus

/-- Where a task stands. -/
inductive TaskStatus where
  | pending | inProgress | needsReview | completed | abandoned
  deriving DecidableEq, Repr

namespace TaskStatus

def text : TaskStatus → String
  | .pending => "pending"
  | .inProgress => "in_progress"
  | .needsReview => "needs_review"
  | .completed => "completed"
  | .abandoned => "abandoned"

def listed : List TaskStatus := [.pending, .inProgress, .needsReview, .completed, .abandoned]

def ofText? (text : String) : Option TaskStatus := listed.find? fun status => status.text = text

theorem ofText?_text (status : TaskStatus) : ofText? status.text = some status := by
  cases status <;> rfl

theorem text_of_ofText? {text : String} {status : TaskStatus} (found : ofText? text = some status) :
    status.text = text := by
  simpa using List.find?_some found

end TaskStatus

instance : Plain PhaseStatus where
  toValue status := .text status.text
  ofValue?
    | .text s => PhaseStatus.ofText? s
    | _ => none
  toValue_of := by
    intro v a found
    split at found
    · rw [PhaseStatus.text_of_ofText? found]
    · contradiction

instance : Plain TaskStatus where
  toValue status := .text status.text
  ofValue?
    | .text s => TaskStatus.ofText? s
    | _ => none
  toValue_of := by
    intro v a found
    split at found
    · rw [TaskStatus.text_of_ofText? found]
    · contradiction

/-- A text is no time: it is read as one only by a reader. -/
instance : Plain Timestamp where
  toValue := .moment
  ofValue?
    | .moment t => some t
    | _ => none
  toValue_of := by rintro (_ | _) a found <;> simp_all

instance : Plain (Option Timestamp) where
  toValue := .ofOption .moment
  ofValue?
    | .null => some none
    | .moment t => some (some t)
    | _ => none
  toValue_of := by
    intro v a found
    split at found
    · cases found
      rfl
    · cases found
      rfl
    · contradiction

/-- A tracked file that a phase consumes or produces. -/
structure Artifact where
  type : Slot String
  path : Slot String
  approved : Slot Bool
  createdAt : Slot Timestamp
  metadata : Slot Metadata
  deriving Repr

structure Task where
  id : Slot String
  name : Slot String
  phase : Slot String
  status : Slot TaskStatus
  createdAt : Slot Timestamp
  updatedAt : Slot Timestamp
  startedAt : Slot (Option Timestamp)
  completedAt : Slot (Option Timestamp)
  iteration : Slot Int
  assignedAgent : Slot String
  inputs : Many Artifact
  outputs : Many Artifact
  metadata : Slot Metadata
  deriving Repr

structure Phase where
  status : Slot PhaseStatus
  enabled : Slot Bool
  createdAt : Slot Timestamp
  startedAt : Slot (Option Timestamp)
  completedAt : Slot (Option Timestamp)
  failedAt : Slot (Option Timestamp)
  iteration : Slot Int
  inputs : Many Artifact
  outputs : Many Artifact
  tasks : Many Task
  metadata : Slot Metadata
  deriving Repr

/-- Where the machine stood when the document was last brought up to date. -/
structure Statechart where
  current : Slot String
  updatedAt : Slot Timestamp
  deriving Repr

structure Document where
  name : Slot String
  type : Slot String
  branch : Slot String
  description : Slot String
  createdAt : Slot Timestamp
  updatedAt : Slot Timestamp
  phases : Table Phase
  statechart : Slot Statechart
  /-- Session identifiers by the role of the agent. -/
  agentSessions : Table String
  deriving Repr

/-- Whether a task is over, one way or the other. -/
def Task.isOver (t : Task) : Bool := t.status.holds .completed || t.status.holds .abandoned

def Statechart.noted (current : String) (now : Timestamp) : Statechart := ⟨.proper current, .proper now⟩

/-- A pending phase with nothing but inputs. -/
def Phase.fresh (now : Timestamp) (inputs : List Artifact) : Phase where
  status := .proper .pending
  enabled := .proper true
  createdAt := .proper now
  startedAt := .proper none
  completedAt := .proper none
  failedAt := .proper none
  iteration := .proper 0
  inputs := .ofList inputs
  outputs := .none
  tasks := .none
  metadata := .proper []

/-- The state in which there is no project any more. -/
def noProject : String := "NoProject"

end Lifecycle
