import Lifecycle.Declared.Expression
import Lifecycle.Document.Dump
import Lifecycle.Types.Breakdown
import Lifecycle.Types.Design
import Lifecycle.Types.Exploration
import Lifecycle.Types.Standard
/-!
What the built-in types are made of, by name, so that declared types can refer to it: prompts,
functions of a project, actions and metadata schemas. -/

namespace Lifecycle.Types

open Declared (Look looked asked)

/-- Sections that every type has. -/
def sections : List (String × Prompt) := [
  ("project_header", fun scene => .ok (Prompt.header scene.sight.document)),
  ("phase_summary", fun scene => Prompt.phases scene.sight.document),
  ("available_transitions", Prompt.nextSteps)]

def prompts : List (String × Prompt) := [
  ("standard.planning_prompt", Standard.planningPrompt),
  ("standard.implementation_planning_prompt", Standard.implementationPlanningPrompt),
  ("standard.implementation_executing_prompt", Standard.implementationExecutingPrompt),
  ("standard.review_prompt", Standard.reviewPrompt),
  ("standard.finalize_documentation_prompt", Standard.finalizeDocumentationPrompt),
  ("standard.finalize_checks_prompt", Standard.finalizeChecksPrompt),
  ("standard.finalize_delete_prompt", Standard.finalizeDeletePrompt),
  ("standard.orchestrator_prompt", Standard.orchestratorPrompt),
  ("exploration.active_prompt", Exploration.activePrompt),
  ("exploration.summarizing_prompt", Exploration.summarizingPrompt),
  ("exploration.finalizing_prompt", Exploration.finalizingPrompt),
  ("exploration.orchestrator_prompt", Exploration.orchestratorPrompt),
  ("design.active_prompt", Design.activePrompt),
  ("design.finalizing_prompt", Design.finalizingPrompt),
  ("design.orchestrator_prompt", Design.orchestratorPrompt),
  ("breakdown.active_prompt", Breakdown.activePrompt),
  ("breakdown.publishing_prompt", Breakdown.publishingPrompt),
  ("breakdown.orchestrator_prompt", Breakdown.orchestratorPrompt)] ++
  ["standard", "exploration", "design", "breakdown"].flatMap fun type =>
    sections.map fun (name, write) => (type ++ "." ++ name, write)

def prompt? (name : String) : Option Prompt :=
  (prompts.find? fun entry => entry.1 = name).map (·.2)

/-- What a function of a type says of a project. -/
def function (name : String) : Look :=
  match name with
  | "standard.latest_review" => looked fun d =>
    (Standard.latestReview? d).map (.ofOption (·.toValue.bare.finite))
  | "standard.latest_review_approved" => looked fun d =>
    (Standard.latestReviewApproval d).map Slot.toValue
  | "standard.review_assessment" => looked fun d => (Standard.reviewAssessment d).map .text
  | "standard.planning_approved" => asked Standard.planningApproved
  | "standard.tasks_approved" => asked Standard.tasksApproved
  | "standard.implementation_done" => asked Standard.implementationDone
  | "standard.project_deleted" => asked Standard.projectDeleted
  | "exploration.all_topics_resolved" => asked Exploration.allTopicsResolved
  | "exploration.all_summaries_approved" => asked Exploration.allSummariesApproved
  | "exploration.all_finalization_tasks_complete" =>
    asked Exploration.allFinalizationTasksComplete
  | "exploration.count_unresolved_topics" => looked fun d => do
    return .integer (← Exploration.unresolvedTopics d)
  | "design.all_documents_approved" => asked Design.allDocumentsApproved
  | "design.all_finalization_tasks_complete" => asked Design.allFinalizationTasksComplete
  | "breakdown.completed_units" => looked fun d => do
    return .list ((← Breakdown.completedUnits d).map (·.toValue.bare.finite))
  | "breakdown.all_work_units_approved" => asked Breakdown.allUnitsApproved
  | "breakdown.dependencies_valid" => asked Breakdown.dependenciesValid
  | "breakdown.ready_to_publish" => asked Breakdown.readyToPublish
  | "breakdown.all_work_units_published" => asked Breakdown.allUnitsPublished
  | "breakdown.count_unpublished" => looked fun d => do
    return .integer (← Breakdown.unpublishedUnits d)
  | "breakdown.is_published" | "breakdown.task_dependencies" => fun _ =>
    .error (.noAttribute "'Project' object has no attribute 'metadata'")
  | _ => fun sight =>
    match prompt? name with
    | some p => (p ⟨sight, none⟩).map .text
    | none => .error (.noAttribute s!"nothing is known as {name}")

def edit? : String → Option (Timestamp → Edit Unit)
  | "standard.start_review_round" => some Standard.startReviewRound
  | "standard.rework_after_failed_review" => some Standard.rework
  | "standard.initialize" => some fun now => Initializer.phases Standard.phaseNames now .null
  | _ => none

def schema : String → Schema
  | "standard.ImplementationMetadata" => Standard.implementationSchema
  | "standard.FinalizeMetadata" => Standard.finalizeSchema
  | "exploration.FinalizationMetadata" => Exploration.finalizationSchema
  | "design.FinalizationMetadata" => Design.finalizationSchema
  | _ => .unusable

end Lifecycle.Types
