import Lifecycle.Blueprint.Basic
import Lifecycle.Document.Tasks
import Lifecycle.Value.Access
/-!
Expressions over a project, declared as data: a list whose first item names the expression. Guards
and determiners are read from them. -/

namespace Lifecycle.Declared

abbrev Look := Sight → Except Fault Value

/-- What the host of declared types contributes: faults, functions and schemas by name. -/
structure Vocabulary where
  fault : String → String → Fault
  function : String → Look
  schema : String → Schema

def looked (answer : Document → Except Fault Value) : Look := fun sight => answer sight.document

/-- Looks at a document for something that counts as a flag. -/
def asked (question : Document → Except Fault Bool) : Look := looked fun d => (question d).map .flag

def pathOf (a : Option Artifact) : Value := .ofOption (fun a => a.path.toValue) a

/-- Metadata of a phase that must be there; a key that is not there gives null. -/
def metadataAt (phase key : String) (d : Document) : Except Fault Value := do
  match ← d.phase? phase with
  | some p => p.metadata.entry key
  | none => throw (.absentKey phase)

/-- Expressions with up to two texts. -/
def simple (w : Vocabulary) (name one two : String) : Look :=
  match name with
  | "raise" => fun _ => .error (w.fault one two)
  | "meta" => looked (metadataAt one two)
  | "phase_status" => looked fun d => do return (← d.phase one).status.toValue
  | "iteration" => looked fun d => do return (← d.phase one).iteration.toValue
  | "n_tasks" => looked fun d => do return .integer (← d.tasks one).length
  | "latest_output" => looked fun d => (d.newestOutput? one two).map pathOf
  | "latest_approved_output" => looked fun d => (d.newestApprovedOutput? one two).map pathOf
  | "phase_output_approved" => asked fun d => d.outputApproved one two
  | "phase_metadata_bool" => asked fun d => d.metadataFlag one two
  | "all_tasks_complete" => asked fun d => d.tasksOver one
  | "name" => looked fun d => .ok d.name.toValue
  | "type" => looked fun d => .ok d.type.toValue
  | "branch" => looked fun d => .ok d.branch.toValue
  | "description" => looked fun d => .ok d.description.toValue
  | "current_state" => fun sight => .ok sight.current.toValue
  | "resolved_with_output" => asked fun d => d.resolvedWithOutput one
  | "all_tasks_completed" => asked fun d => d.allTasksCompleted one
  | "linked_artifact" => looked fun d => do return (← d.linkedArtifact one two).path.toValue
  | "builtin" => w.function one
  | _ => fun _ => .error (.usage s!"unknown expression {Text.quoted name}")

def expression (w : Vocabulary) : Value → Look
  | .list [.text "const", v] => fun _ => .ok v
  | .list [.text "not", e] => fun sight => (expression w e sight).map fun v => .flag (!v.truthy)
  | e => simple w (e.textAt 0) (e.textAt 1) (e.textAt 2)

def nameOf (w : Vocabulary) (e : Value) (sight : Sight) : Except Fault String :=
  (expression w e sight).map Value.name

def testOf (w : Vocabulary) (e : Value) (sight : Sight) : Except Fault Bool :=
  (expression w e sight).map Value.truthy

end Lifecycle.Declared
