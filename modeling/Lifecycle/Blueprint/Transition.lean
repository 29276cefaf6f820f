import Lifecycle.Document.Phases
/-!
Transitions between states. Guards only look at a project, actions work on its document. -/

namespace Lifecycle

/-- What guards and determiners look at: the document, and the state the machine stands in. -/
structure Sight where
  document : Document
  current : Slot String

structure Guard where
  /-- The requirement, as shown when the guard blocks. -/
  description : String
  test : Sight → Except Fault Bool

/-- When an action runs, and in which state of the machine. -/
structure Moment where
  now : Timestamp
  current : Slot String

/-- What an action works on. The journal holds lines for whoever runs the machine. -/
structure Workpiece where
  document : Document
  journal : List String

abbrev Action := Moment → Attempt Workpiece Unit

namespace Action

/-- An action that only edits the document. -/
def ofEdit {α : Type} (edit : Timestamp → Edit α) : Action := fun moment =>
  Attempt.focus (·.document) (fun document piece => { piece with document }) do
    let _ ← edit moment.now

/-- One action after another. -/
def sequence (actions : List Action) : Action := fun moment =>
  actions.forM fun action => action moment

end Action

structure Transition where
  source : String
  target : String
  event : String
  guard : Option Guard
  onEntry : Option Action
  onExit : Option Action
  description : String
  /-- A phase that this transition fails where it would complete it. -/
  failedPhase : Option String

namespace Transition

def plain (source target event : String) : Transition where
  source := source
  target := target
  event := event
  guard := none
  onEntry := none
  onExit := none
  description := ""
  failedPhase := none

def guardDescription (t : Transition) : String :=
  match t.guard with
  | some g => g.description
  | none => ""

/-- What is said when the guard blocks. -/
def blockReason (t : Transition) : String :=
  if t.guardDescription = "" then "guard condition not met" else t.guardDescription

end Transition

end Lifecycle
