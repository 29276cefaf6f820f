import Lifecycle.Project.Basic
import Lifecycle.Registry
import Lifecycle.Storage.Backend
import Lifecycle.Validation
/-!
Projects in and out of storage. What is loaded has passed both tiers of validation, and so has what
is saved. -/

namespace Lifecycle

/-- A storage, and what checked the projects that went in and out. -/
structure Archive (σ : Type) where
  store : σ
  checkers : Checkers

/-- A live project beside the archive that it is kept in. -/
structure Desk (σ : Type) where
  project : Project
  archive : Archive σ

/-- What a new project is made from. -/
structure Request where
  description : String
  branch : String := "main"
  type : Option String := none
  inputs : Value := .null
  name : Option String := none

/-- Types by what the name of a branch begins with. -/
def branchTypes : List (String × String) :=
  [("explore/", "exploration"), ("design/", "design"), ("breakdown/", "breakdown")]

def detectType (branch : String) : String :=
  match branchTypes.find? fun entry => entry.1.isPrefixOf branch with
  | some entry => entry.2
  | none => "standard"

namespace Request

/-- An option that is left out or empty says nothing. -/
def given (option : Option String) : Option String := option.filter (· ≠ "")

def typeName (r : Request) : String := (given r.type).getD (detectType r.branch)

/-- The name asked for, else one made from the description. -/
def projectName (r : Request) : Except Fault String :=
  match given r.name with
  | some name => .ok name
  | none =>
    let derived := Text.slug r.description
    if derived = "" then
      .error (.invalid ⟨none,
        s!"cannot derive a project name from description {Text.quoted r.description}"⟩)
    else .ok derived

/-- A document without phases, unless it would break the rules for documents. -/
def draftDocument (r : Request) (now : Timestamp) (name initial : String) :
    Except Fault Document :=
  let d : Document := {
    name := .proper name
    type := .proper r.typeName
    branch := .proper r.branch
    description := .proper r.description
    createdAt := .proper now
    updatedAt := .proper now
    phases := .empty
    statechart := .proper (.noted initial now)
    agentSessions := .empty }
  if d.problems.isEmpty then .ok d else .error (.malformed d.problems)

end Request

/-- Lets the type fill in a new document. A failure of this library's own passes, others are
explained. -/
def Blueprint.initialized (b : Blueprint) (now : Timestamp) (inputs : Value) (d : Document) :
    Except Fault Document :=
  match b.initializer with
  | none => .ok d
  | some initializer =>
    match initializer now inputs d with
    | (.ok _, filled) => .ok filled
    | (.error fault, _) =>
      .error (if fault.isOwn then fault else .initialization d.name.display fault)

/-- What an edit makes of a document, if it does not fail. -/
def Edit.result (edit : Edit Unit) (d : Document) : Except Fault Document :=
  match edit d with
  | (.ok _, edited) => .ok edited
  | (.error fault, _) => .error fault

/-- A new project, not stored yet. -/
def Project.new (registry : Registry) (now : Timestamp) (r : Request) : Except Fault Project := do
  let b ← registry.get r.typeName
  let name ← r.projectName
  let d ← r.draftDocument now name b.initial
  let filled ← b.initialized now r.inputs d
  let started ← (Edit.startPhases now (b.phasesStartingAt b.initial)).result filled
  return .start b started b.initial

variable {σ : Type} [Backend σ]

namespace Archive

def onStore {α : Type} (work : Attempt σ α) : Attempt (Archive σ) α :=
  Attempt.focus Archive.store (fun store archive => { archive with store }) work

def onCheckers {α : Type} (work : Attempt Checkers α) : Attempt (Archive σ) α :=
  Attempt.focus Archive.checkers (fun checkers archive => { archive with checkers }) work

end Archive

namespace Desk

def onProject {α : Type} (work : Attempt Project α) : Attempt (Desk σ) α :=
  Attempt.focus Desk.project (fun project desk => { desk with project }) work

def onArchive {α : Type} (work : Attempt (Archive σ) α) : Attempt (Desk σ) α :=
  Attempt.focus Desk.archive (fun archive desk => { desk with archive }) work

def onStore {α : Type} (work : Attempt σ α) : Attempt (Desk σ) α :=
  onArchive (Archive.onStore work)

/-- Brings the document up to date with its machine and the clock. -/
def stamp (now : Timestamp) : Attempt (Desk σ) Unit :=
  onProject do
    Project.sync now
    modify fun p => { p with document := { p.document with updatedAt := .proper now } }

/-- Validates the project and stores it; what is invalid is never stored. -/
def save (now : Timestamp) : Attempt (Desk σ) Unit := do
  stamp now
  let p := (← get).project
  onArchive (Archive.onCheckers (p.blueprint.check p.document))
  onStore (Backend.save p.document)

end Desk

/-- Stores a document that no type governs; only the first tier of validation applies. -/
def Document.saveLoose (d : Document) : Attempt σ Unit := do
  Attempt.ofExcept d.checkStructure
  Backend.save d

namespace Project

/-- The stored project, its machine in the stored state. -/
def load (registry : Registry) (now : Timestamp) : Attempt (Archive σ) Project := do
  let d ← Archive.onStore (Backend.load now)
  Attempt.ofExcept d.checkStructure
  let b ← Attempt.ofExcept (registry.get d.type.display)
  let state ← Attempt.ofExcept d.current
  Archive.onCheckers (b.checkPhases d)
  return .start b d state.display

/-- Makes a new project and stores it. -/
def create (registry : Registry) (now : Timestamp) (r : Request) : Attempt (Archive σ) Project := do
  let p ← Attempt.ofExcept (Project.new registry now r)
  fun archive =>
    let (outcome, desk) := Desk.save now ⟨p, archive⟩
    (outcome.map fun _ => desk.project, desk.archive)

end Project

end Lifecycle
