import Lifecycle.Blueprint.Basic
import Lifecycle.Text.Lines
/-!
Guidance for the state that a project is in, as sections of text. Sections are set apart by blank
lines, and those that are missing or empty are left out. -/

namespace Lifecycle.Prompt

/-- Joins sections; text that ends in newlines is trimmed first. -/
def compose (sections : List (Option String)) : String :=
  let written := sections.filterMap fun
    | some s => if s = "" then none else some (Text.trimNewlines s)
    | none => none
  if written.isEmpty then "" else "\n\n".intercalate written ++ "\n"

/-- A heading over a list of lines; without lines there is no heading either. -/
def listing (heading : String) (lines : List String) : String :=
  if lines.isEmpty then ""
  else Text.unlines (("## " ++ heading) :: "" :: lines) ++ "\n"

def header (d : Document) : String :=
  let described := if d.description.truthy then [s!"Description: {d.description.display}"] else []
  Text.unlines ([s!"# Project: {d.name.display}", s!"Branch: {d.branch.display}"] ++ described) ++
    "\n"

def artifactLine (showStatus : Bool) (s : Slot Artifact) : Except Fault String := do
  if showStatus then
    let a ← s.having "approved"
    return s!"- {a.path.display} " ++ (if a.isApproved then "(approved)" else "(pending)")
  else
    let a ← s.having "path"
    return s!"- {a.path.display}"

def artifacts (title : String) (showStatus : Bool) (list : Many Artifact) : Except Fault String := do
  return listing title (← (← list.elements).mapM (artifactLine showStatus))

def taskLabels : List (TaskStatus × String) := [
  (.completed, "completed"),
  (.inProgress, "in progress"),
  (.needsReview, "needs review"),
  (.pending, "pending"),
  (.abandoned, "abandoned")]

/-- How many tasks have each status, for the statuses that occur. -/
def tasks (list : List (Slot Task)) : Except Fault String := do
  let held ← list.mapM (Slot.having "status")
  let counts := taskLabels.filterMap fun (status, label) =>
    let count := held.countP (·.status.holds status)
    if count = 0 then none else some s!"- {count} {label}"
  return if held.isEmpty then ""
    else Text.unlines (s!"## Tasks ({held.length} total)" :: "" :: counts) ++ "\n"

/-- How often a phase has been gone through, if more than once. -/
def iterationNote (iteration : Slot Int) : Except Fault String := do
  return if ← iteration.toValue.exceeds 1 then s!" (iteration {iteration.display})" else ""

def phaseLine (name : String) (s : Slot Phase) : Except Fault String := do
  let p ← s.having "status"
  return s!"- {name}: {p.status.display}" ++ (← iterationNote p.iteration)

def phases (d : Document) : Except Fault String := do
  if d.phases.filled then
    let lines ← (← d.phases.entries).mapM fun entry => phaseLine entry.1 entry.2
    return listing "Phases" lines
  else return ""

def outlookLine (o : Outlook) : Except Fault String := do
  let described := if o.description = "" then "" else ": " ++ o.description
  let required :=
    match ← o.blockedReason with
    | some reason => if reason = "" then "" else s!" (requires: {reason})"
    | none => ""
  return s!"- {o.event} -> {o.target}" ++ described ++ required

/-- The transitions that leave the current state, and what blocks them. -/
def nextSteps (scene : Scene) : Except Fault String :=
  match scene.outlooks with
  | some outlooks => return listing "Next Steps" (← outlooks.mapM outlookLine)
  | none => .ok ""

abbrev Section := Scene → Except Fault (Option String)

def fixed (text : String) : Section := fun _ => .ok (some text)

/-- A section about the document alone. -/
def about (write : Document → Except Fault String) : Section := fun scene =>
  (write scene.sight.document).map some

def opening : Section := about fun d => .ok (header d)

def steps : Section := fun scene => (nextSteps scene).map some

/-- A prompt made of sections, written one after the other. -/
def ofSections (sections : List Section) : Prompt := fun scene => do
  return compose (← sections.mapM fun write => write scene)

end Lifecycle.Prompt
