import Lifecycle.Declared.Expression
import Lifecycle.Document.Reader
/-! Actions on a project, declared as data: a list whose first item names the action. -/

namespace Lifecycle.Declared

/-- An action with a result. -/
abbrev Deed := Moment → Attempt Workpiece Value

def onDocument {α : Type} (edit : Edit α) : Attempt Workpiece α :=
  Attempt.focus Workpiece.document (fun document piece => { piece with document }) edit

def silently (edit : Timestamp → Edit Unit) : Deed := fun moment => do
  onDocument (edit moment.now)
  return .null

/-- Leaves a line that says in which state it was left. -/
def trace (label : String) : Deed := fun moment => do
  modify fun piece =>
    { piece with journal := piece.journal ++ [s!"{label}@{moment.current.display}"] }
  return .null

/-- Takes an entry out of metadata; its result is the entry, if there was one. -/
def popMetadata (phase key : String) : Edit Value := do
  let before := (← Edit.phase phase).metadata
  Edit.takeMetadata phase key
  Attempt.ofExcept (before.entry key)

/-- Adds an output; that the phase is there and takes outputs is checked before the output is read. -/
def addOutput (phase : String) (v : Value) (now : Timestamp) : Edit Unit := do
  if let .stray other := (← Edit.phase phase).outputs then throw (other.lacks "append")
  Edit.addOutput phase (← Attempt.ofExcept (Artifact.read now v).result)

/-- Which artifacts a copying action takes. -/
def wanted (condition : Value) (a : Artifact) : Except Fault Bool :=
  match condition with
  | .text "approved" => .ok a.isApproved
  | .text "unapproved" => .ok !a.isApproved
  | .list [_, key, v] => (a.metadata.entry key.asText).map fun found => found.same v
  | _ => .ok true

def deed (w : Vocabulary) (a : Value) : Deed :=
  let one := a.textAt 1
  let two := a.textAt 2
  match a.textAt 0 with
  | "raise" => fun _ => throw (w.fault one two)
  | "trace" => trace one
  | "set_meta" => silently fun _ => Edit.putMetadata one two (a.item 3)
  | "set_opaque" => silently fun _ => Edit.putMetadata one two .live
  | "pop_meta" => fun _ => onDocument (popMetadata one two)
  | "add_output" => silently (addOutput one (a.item 2))
  | "complete_task" => fun _ => do
    return (← onDocument (Edit.completeLinkedTask one two)).path.toValue
  | "copy_input" => fun _ => do
    return (← onDocument
      (Edit.copyOutput one two (a.textAt 3) (wanted (a.item 4)))).path.toValue
  | "mark_phase_in_progress" => silently fun now => Edit.startPhase now one
  | "mark_phase_completed" => silently fun now => Edit.completePhase now one
  | "mark_phase_failed" => silently fun now => Edit.failPhase now one
  | "reopen_phase" => silently fun now => Edit.reopenPhase now one
  | "increment_phase_iteration" => fun _ => do
    return (← onDocument (Edit.iteratePhase one)).toValue
  | name => fun _ => throw (.usage s!"unknown action {Text.quoted name}")

def actions (w : Vocabulary) (list : Value) : Action :=
  Action.sequence (list.items.map fun a moment => do let _ ← deed w a moment)

end Lifecycle.Declared
