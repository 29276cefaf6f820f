import Lifecycle.Blueprint.Draft
import Lifecycle.Document.Tasks
import Lifecycle.Prompt
import Lifecycle.Types.Dependencies
import Lifecycle.Value.Access
/-!
The breakdown type: a feature is split into work units, one task each, which may depend on each
other. They are published once all are resolved and those completed can be put in an order in which
every unit comes after those it depends on. -/

namespace Lifecycle.Breakdown

open Prompt

def phaseNames : List String := ["breakdown"]

/-- The units that a unit depends on; entries that are no text do not count. -/
def dependencies (t : Task) : Except Fault (List String) := do
  match ← t.metadata.entry "dependencies" with
  | .list vs => return vs.filterMap Value.asText?
  | _ => return []

def completedUnits (d : Document) : Except Fault (List Task) := do
  Slot.filter "status" (fun t => .ok t.isCompleted) (← d.tasks "breakdown")

/-- Units by their ids, and what each depends on. A unit whose id is a stray is in nobody's way, as
no unit can name it. -/
structure Graph where
  named : Dependencies
  strays : List (Value × List String)

namespace Graph

/-- Adds a unit; of units with one id the last counts. -/
def add (g : Graph) (id : Slot String) (after : List String) : Except Fault Graph :=
  match id with
  | .proper name => .ok { g with named := Keyed.put g.named name after }
  | .stray v => do
    v.mustBeKey
    return { g with strays := g.strays.filter (fun entry => !entry.1.same v) ++ [(v, after)] }

def addUnit (g : Graph) (t : Task) : Except Fault Graph := do g.add t.id (← dependencies t)

/-- Whether every unit depends on units of the graph only. -/
def knowsAll (g : Graph) : Bool :=
  g.named.all (fun entry => entry.2.all (Keyed.has g.named)) &&
    g.strays.all fun entry => entry.2.all (Keyed.has g.named)

/-- The search that begins with every unit that can be named. -/
def search (g : Graph) : Search := (Search.start (Keyed.keys g.named)).finish g.named

/-- Whether no unit depends on itself, be it through others. -/
def isAcyclic (g : Graph) : Bool := !g.search.circular

end Graph

/-- What every completed unit depends on. -/
def graph (d : Document) : Except Fault Graph := do
  (← completedUnits d).foldlM Graph.addUnit ⟨[], []⟩

/-- Whether completed units depend on completed units only, and not in a cycle. -/
def dependenciesValid (d : Document) : Except Fault Bool := do
  let g ← graph d
  return g.knowsAll && g.isAcyclic

def allUnitsApproved (d : Document) : Except Fault Bool := d.resolvedWithOutput "breakdown"

def readyToPublish (d : Document) : Except Fault Bool := do
  if ← allUnitsApproved d then dependenciesValid d else return false

def isPublished (t : Task) : Except Fault Bool := do
  match ← t.metadata.entry "published" with
  | .flag b => return b
  | _ => return false

def allUnitsPublished (d : Document) : Except Fault Bool := do
  let units ← completedUnits d
  if units.isEmpty then return false else units.allM isPublished

def unpublishedUnits (d : Document) : Except Fault Nat := do
  return (← (← completedUnits d).filterM fun t => (isPublished t).map not).length

def warning (d : Document) : Except Fault String := do
  return if ← dependenciesValid d then ""
    else "Dependencies are invalid: a unit depends on an unknown or unfinished unit, " ++
      "or they form a cycle."

def unitLine (s : Slot Task) : Except Fault String := do
  let t ← s.having "metadata"
  let units ← dependencies t
  let after := if units.isEmpty then "" else " after " ++ Fault.commaList units
  return s!"- [{t.id.display}] {t.name.display} ({t.status.display})" ++ after

/-- The phase must be there. -/
def activePrompt : Prompt := fun scene => do
  let breakdown ← scene.sight.document.phase "breakdown"
  let caution ← warning scene.sight.document
  let units ← breakdown.tasks.elements
  let lines ← units.mapM unitLine
  ofSections [
    opening,
    fixed ("## Breakdown\n\nDecompose the work into units. Give each unit a task, write its " ++
      "`work_unit_spec` output and link it through `artifact_path`. List prerequisite " ++
      "unit ids under `dependencies`."),
    about fun _ => artifacts "Inputs" false breakdown.inputs,
    about fun _ => tasks units,
    fixed (Text.unlines lines),
    fixed caution,
    steps] scene

def publishedLine (t : Task) : Except Fault String := do
  return (if ← isPublished t then "- [x] " else "- [ ] ") ++ t.name.display

def remaining (d : Document) : Except Fault String := do
  let total := (← completedUnits d).length
  let left ← unpublishedUnits d
  return s!"{left} of {total} work units left to publish."

def publishingPrompt : Prompt := ofSections [
  opening,
  fixed ("## Publishing\n\nCreate an issue for every approved work unit in dependency " ++
    "order and set `published` on its task."),
  about fun d => do return Text.unlines (← (← completedUnits d).mapM publishedLine),
  about remaining,
  steps]

def orchestratorPrompt : Prompt := ofSections [
  opening,
  fixed ("This is a breakdown project: split a feature into specified work units, " ++
    "then publish them as issues."),
  about phases]

def draft : Draft :=
  Draft.empty "breakdown"
  |>.phase "breakdown" [
    .startingAt "Active", .endingAt "Publishing", .outputs ["work_unit_spec"], .tasks]
  |>.startAt "Active"
  |>.transition "Active" "Publishing" "begin_publishing" [
    .guardOn "all work units approved and dependencies valid" readyToPublish,
    .description "Work units approved - publish them"]
  |>.transition "Publishing" noProject "complete_breakdown" [
    .guardOn "all work units published" allUnitsPublished,
    .description "Breakdown finished"]
  |>.alwaysAdvance "Active" "begin_publishing"
  |>.alwaysAdvance "Publishing" "complete_breakdown"
  |>.prompt "Active" activePrompt
  |>.prompt "Publishing" publishingPrompt
  |>.orchestratorPrompt orchestratorPrompt
  |>.initializeWith (.phases phaseNames)

def blueprint : Blueprint := draft.blueprint "Active"

end Lifecycle.Breakdown
