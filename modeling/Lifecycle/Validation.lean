import Lifecycle.Blueprint.Basic
import Lifecycle.Document.Dump
import Lifecycle.Document.Reader
import Lifecycle.Value.Order
/-!
Two tiers of validation. The first holds a document against the rules for every document, the
second holds its phases against what their type declares. Both list every finding. -/

namespace Lifecycle

/-- The phase that a problem belongs to, if its path leads into one. -/
def Problem.phase? (p : Problem) : Option String :=
  match p.path with
  | "phases" :: name :: _ => some name
  | _ => none

def Problem.finding (p : Problem) : Finding := ⟨p.phase?, s!"{p.location}: {p.misfit.message}"⟩

namespace Document

/-- Every rule for documents that a document breaks; the time that a field left out would get does
not matter. -/
def problems (d : Document) : List Problem :=
  (Document.read (.ofSeconds 0 0 none) d.toValue.bare).problems

/-- First tier. -/
def structureFindings (d : Document) : List Finding := d.problems.map Problem.finding

def checkStructure (d : Document) : Except Fault Unit :=
  if d.structureFindings.isEmpty then .ok ()
  else .error (.invalidProject "validate structure" d.structureFindings)

end Document

namespace PhasePlan

/-- Artifacts of a type that is not among those allowed; if none are listed all are. -/
def artifactFindings (allowed : List String) (phase category : String) (artifacts : Many Artifact) :
    Except Fault (List Finding) := do
  if allowed.isEmpty then return []
  let list ← artifacts.elements
  return (← list.mapIdxM unlisted).flatten
where
  unlisted (n : Nat) (s : Slot Artifact) : Except Fault (List Finding) := do
    let a ← s.having "type"
    if allowed.any a.type.holds then return []
    return [⟨some phase, s!"{category} artifact {n} ({a.path.display}) has type {a.type.shown}, " ++
      s!"allowed: {Fault.commaList allowed}"⟩]

def taskFindings (plan : PhasePlan) (phase : String) (tasks : Many Task) :
    Except Fault (List Finding) := do
  if !tasks.filled || plan.hasTasks then return []
  let count ← tasks.size
  return [⟨some phase, s!"phase does not support tasks ({count} found)"⟩]

/-- The names that metadata lists. -/
def metadataNames : Slot Metadata → Except Fault (List String)
  | .proper m => .ok (Text.sorted (Keyed.keys m))
  | .stray v => v.sortedTexts

/-- Without a schema there must not be any metadata. -/
def metadataFindings (plan : PhasePlan) (metadata : Slot Metadata) :
    Attempt Checkers (List Finding) := do
  match plan.schema with
  | some schema =>
    let problems ← schema.check metadata.toValue
    return problems.map fun p => ⟨some plan.name, s!"metadata {p.text}"⟩
  | none =>
    if metadata.truthy then
      let found := Fault.commaList (← Attempt.ofExcept (metadataNames metadata))
      return [⟨some plan.name, s!"metadata not allowed, no schema declared (found keys: {found})"⟩]
    else return []

def findings (plan : PhasePlan) (name : String) (p : Phase) : Attempt Checkers (List Finding) := do
  return (← Attempt.ofExcept (artifactFindings plan.inputTypes name "input" p.inputs))
    ++ (← Attempt.ofExcept (artifactFindings plan.outputTypes name "output" p.outputs))
    ++ (← Attempt.ofExcept (plan.taskFindings name p.tasks))
    ++ (← plan.metadataFindings p.metadata)

end PhasePlan

namespace Blueprint

def phaseFindings (b : Blueprint) (name : String) (s : Slot Phase) :
    Attempt Checkers (List Finding) := do
  match b.phase? name with
  | some plan => plan.findings name (← Attempt.ofExcept (s.having "inputs"))
  | none => return [⟨some name, s!"phase not defined by project type {b.name}"⟩]

/-- Second tier. -/
def phasesFindings (b : Blueprint) (d : Document) : Attempt Checkers (List Finding) := do
  let entries ← Attempt.ofExcept d.phases.entries
  let found ← entries.mapM fun entry => b.phaseFindings entry.1 entry.2
  return found.flatten

/-- Both tiers. -/
def findings (b : Blueprint) (d : Document) : Attempt Checkers (List Finding) := do
  return d.structureFindings ++ (← b.phasesFindings d)

def check (b : Blueprint) (d : Document) : Attempt Checkers Unit := do
  let found ← b.findings d
  if !found.isEmpty then
    throw (.invalidProject s!"project {d.name.display} is invalid" found)

def checkPhases (b : Blueprint) (d : Document) : Attempt Checkers Unit := do
  let found ← b.phasesFindings d
  if !found.isEmpty then throw (.invalidProject "validate metadata" found)

end Blueprint

end Lifecycle
