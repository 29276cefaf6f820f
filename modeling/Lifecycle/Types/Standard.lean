import Lifecycle.Blueprint.Draft
import Lifecycle.Prompt
import Lifecycle.Value.Access
/-!
The standard type: plan, implement, review, finalize. The assessment of the latest approved review
decides whether a project goes on or back; going back attaches the failed review to the
implementation. -/

namespace Lifecycle.Standard

open Prompt

def phaseNames : List String := ["planning", "implementation", "review", "finalize"]

def implementationSchema : Schema :=
  .record "ImplementationMetadata" .forbidden [⟨"tasks_approved", .optional .flag, false⟩]

def finalizeSchema : Schema :=
  .record "FinalizeMetadata" .forbidden [
    ⟨"project_deleted", .optional .flag, false⟩,
    ⟨"pr_url", .optional .text, false⟩,
    ⟨"documentation_updated", .optional .flag, false⟩,
    ⟨"checks_passed", .optional .flag, false⟩]

def latestReview? (d : Document) : Except Fault (Option Artifact) :=
  d.newestOutput? "review" "review"

/-- What the latest review has for its approval. -/
def latestReviewApproval (d : Document) : Except Fault (Slot Bool) := do
  return match ← latestReview? d with
    | some review => review.approved
    | none => .proper false

def latestReviewApproved (d : Document) : Except Fault Bool := do
  return (← latestReviewApproval d).truthy

/-- What the latest approved review came to; empty if there is none or it does not say. -/
def reviewAssessment (d : Document) : Except Fault String := do
  match ← d.newestApprovedOutput? "review" "review" with
  | some review => return (← review.metadata.entry "assessment").asText
  | none => return ""

def planningApproved (d : Document) : Except Fault Bool := d.outputApproved "planning" "task_list"

def tasksApproved (d : Document) : Except Fault Bool := do
  if ← d.metadataFlag "implementation" "tasks_approved" then
    return !(← d.tasks "implementation").isEmpty
  else return false

def implementationDone (d : Document) : Except Fault Bool := d.tasksOver "implementation"

def projectDeleted (d : Document) : Except Fault Bool := d.metadataFlag "finalize" "project_deleted"

/-- Reopens a review that has been through already, and counts the round. -/
def startReviewRound (now : Timestamp) : Edit Unit := do
  let review ← Edit.phase "review"
  if review.status.holds .completed || review.status.holds .failed then
    Edit.reopenPhase now "review"
  let _ ← Edit.iteratePhase "review"

def isFailedReview (a : Artifact) : Except Fault Bool := do
  if a.isApproved then return (← a.metadata.entry "assessment").same (.text "fail")
  else return false

/-- Takes the implementation up again, with the failed review among its inputs. -/
def rework (now : Timestamp) : Edit Unit := do
  Edit.reopenPhase now "implementation"
  let _ ← Edit.iteratePhase "implementation"
  Edit.takeMetadata "implementation" "tasks_approved"
  let _ ← Edit.copyOutput "review" "implementation" "review" isFailedReview

def inputsOf (phase : String) (d : Document) : Except Fault (Many Artifact) :=
  d.askPhase phase .none fun p => .ok p.inputs

def outputsOf (phase : String) (d : Document) : Except Fault (Many Artifact) :=
  d.askPhase phase .none fun p => .ok p.outputs

def taskSection : Section := about fun d => do tasks (← d.tasks "implementation")

def planningPrompt : Prompt := ofSections [
  opening,
  fixed ("## Planning\n\nGather context, confirm requirements with the user and " ++
    "produce a task list. Register it as a `task_list` output and get it approved."),
  about fun d => do artifacts "Planning Artifacts" true (← outputsOf "planning" d),
  steps]

def implementationPlanningPrompt : Prompt := ofSections [
  opening,
  about fun d => do artifacts "Planning Context" false (← outputsOf "planning" d),
  about fun d => do artifacts "Rework Inputs" false (← inputsOf "implementation" d),
  fixed ("## Implementation Planning\n\nBreak the approved plan into concrete tasks. " ++
    "Set `tasks_approved` once the user signs off on the task breakdown."),
  taskSection,
  steps]

def implementationExecutingPrompt : Prompt := ofSections [
  opening,
  taskSection,
  fixed ("## Implementation\n\nWork through the pending tasks. Every task must end " ++
    "completed or abandoned before review can start."),
  steps]

/-- Which round of review it is; there is always a first. -/
def reviewRound (d : Document) : Except Fault Value :=
  d.askPhase "review" (.integer 1) fun review => review.iteration.toValue.atLeast 1

/-- The review that a later round looks back on. -/
def previousReview (d : Document) : Except Fault String := do
  if ← (← reviewRound d).exceeds 1 then
    let outputs ← (← outputsOf "review" d).elements
    match (← Slot.filter "type" (fun a => .ok (a.type.holds "review")) outputs).getLast? with
    | some last =>
      let assessment ← last.metadata.entryOr "assessment" (.text "unknown")
      return s!"### Previous Review\n\nAssessment: {assessment.display}\n" ++
        s!"Report: {last.path.display}"
    | none => return ""
  else return ""

def reviewPrompt : Prompt := ofSections [
  opening,
  about fun d => do return s!"## Review Iteration: " ++ (← reviewRound d).display,
  about previousReview,
  taskSection,
  fixed ("Review the implementation against the plan. Add a `review` output with an " ++
    "`assessment` of `pass` or `fail` and approve it."),
  steps]

def finalizeDocumentationPrompt : Prompt := ofSections [
  opening,
  fixed ("## Documentation\n\nUpdate documentation affected by the change, " ++
    "or confirm none is needed."),
  steps]

def finalizeChecksPrompt : Prompt := ofSections [
  opening,
  fixed "## Final Checks\n\nRun the test suite, linters and build. Fix anything that fails.",
  steps]

def pullRequest (d : Document) : Except Fault String := do
  let url ← d.askPhase "finalize" .null fun p => p.metadata.entry "pr_url"
  return if url.truthy then s!"## Pull Request\n\n{url.display}" else ""

def finalizeDeletePrompt : Prompt := ofSections [
  opening,
  about pullRequest,
  fixed "## Cleanup\n\nDelete the project state and set `project_deleted` to finish.",
  steps]

def orchestratorPrompt : Prompt := ofSections [
  opening,
  fixed ("This is a standard project: plan, implement, review, then finalize. " ++
    "A failed review sends the work back to implementation planning."),
  about phases]

def reviewBranch : List BranchOption := [
  .on fun sight => reviewAssessment sight.document,
  .route "pass" "review_pass" "FinalizeDocumentation" [
    .guardOn "latest review approved" latestReviewApproved,
    .description "Review passed - proceed to finalization"],
  .route "fail" "review_fail" "ImplementationPlanning" [
    .guardOn "latest review approved" latestReviewApproved,
    .onEntry (.ofEdit rework),
    .failing "review",
    .description "Review failed - return to implementation planning"]]

def draft : Draft :=
  Draft.empty "standard"
  |>.phase "planning" [
    .startingAt "PlanningActive", .endingAt "PlanningActive",
    .inputs ["context"], .outputs ["task_list"]]
  |>.phase "implementation" [
    .startingAt "ImplementationPlanning", .endingAt "ImplementationExecuting",
    .inputs ["review", "context"], .tasks, .schema implementationSchema]
  |>.phase "review" [
    .startingAt "ReviewActive", .endingAt "ReviewActive", .outputs ["review"]]
  |>.phase "finalize" [
    .startingAt "FinalizeDocumentation", .endingAt "FinalizeDelete", .schema finalizeSchema]
  |>.startAt "PlanningActive"
  |>.transition noProject "PlanningActive" "project_init" [.description "Start a new project"]
  |>.transition "PlanningActive" "ImplementationPlanning" "complete_planning" [
    .guardOn "planning task_list output approved" planningApproved,
    .description "Planning done - break the plan into tasks"]
  |>.transition "ImplementationPlanning" "ImplementationExecuting" "tasks_approved" [
    .guardOn "tasks created and tasks_approved set" tasksApproved,
    .description "Tasks approved - start executing them"]
  |>.transition "ImplementationExecuting" "ReviewActive" "all_tasks_complete" [
    .guardOn "all implementation tasks completed or abandoned" implementationDone,
    .onEntry (.ofEdit startReviewRound),
    .description "Implementation done - review it"]
  |>.branch "ReviewActive" reviewBranch
  |>.transition "FinalizeDocumentation" "FinalizeChecks" "documentation_done" [
    .description "Documentation updated - run final checks"]
  |>.transition "FinalizeChecks" "FinalizeDelete" "checks_done" [
    .description "Checks done - clean up the project"]
  |>.transition "FinalizeDelete" noProject "project_delete" [
    .guardOn "finalize project_deleted set" projectDeleted,
    .description "Project finished"]
  |>.alwaysAdvance "PlanningActive" "complete_planning"
  |>.alwaysAdvance "ImplementationPlanning" "tasks_approved"
  |>.alwaysAdvance "ImplementationExecuting" "all_tasks_complete"
  |>.alwaysAdvance "FinalizeDocumentation" "documentation_done"
  |>.alwaysAdvance "FinalizeChecks" "checks_done"
  |>.alwaysAdvance "FinalizeDelete" "project_delete"
  |>.prompt "PlanningActive" planningPrompt
  |>.prompt "ImplementationPlanning" implementationPlanningPrompt
  |>.prompt "ImplementationExecuting" implementationExecutingPrompt
  |>.prompt "ReviewActive" reviewPrompt
  |>.prompt "FinalizeDocumentation" finalizeDocumentationPrompt
  |>.prompt "FinalizeChecks" finalizeChecksPrompt
  |>.prompt "FinalizeDelete" finalizeDeletePrompt
  |>.orchestratorPrompt orchestratorPrompt
  |>.initializeWith (.phases phaseNames)

def blueprint : Blueprint := draft.blueprint "PlanningActive"

end Lifecycle.Standard
