import Lifecycle.Blueprint.Draft
import Lifecycle.Document.Tasks
import Lifecycle.Prompt
/-!
The design type: every task plans one document. Designing ends once all tasks are resolved and one
of them produced a document; finalization publishes the documents. -/

namespace Lifecycle.Design

open Prompt

def phaseNames : List String := ["design", "finalization"]

def documentTypes : List String := ["design", "adr", "architecture", "diagram", "spec"]

def finalizationSchema : Schema :=
  .record "FinalizationMetadata" .forbidden [⟨"pr_url", .optional .text, false⟩]

def allDocumentsApproved (d : Document) : Except Fault Bool := d.resolvedWithOutput "design"

def allFinalizationTasksComplete (d : Document) : Except Fault Bool :=
  d.allTasksCompleted "finalization"

def guidance : String :=
  "## Design\n\nPlan one task per document. Set `artifact_path` on each task, " ++
    "register the document as an output of type " ++
    Fault.commaList documentTypes ++ ", then complete the task."

/-- The phase must be there. -/
def activePrompt : Prompt := fun scene => do
  let design ← scene.sight.document.phase "design"
  ofSections [
    opening,
    fixed guidance,
    about fun _ => artifacts "Inputs" false design.inputs,
    about fun _ => do tasks (← design.tasks.elements),
    about fun _ => artifacts "Documents" true design.outputs,
    steps] scene

def finalizingPrompt : Prompt := ofSections [
  opening,
  fixed ("## Finalization\n\nMove the approved documents to their final location, " ++
    "open a pull request and record it as a `pr` output."),
  about fun d => do tasks (← d.tasks "finalization"),
  steps]

def orchestratorPrompt : Prompt := ofSections [
  opening,
  fixed "This is a design project: write and approve design documents, then publish them.",
  about phases]

def draft : Draft :=
  Draft.empty "design"
  |>.phase "design" [
    .startingAt "Active", .endingAt "Active", .outputs documentTypes, .tasks]
  |>.phase "finalization" [
    .startingAt "Finalizing", .endingAt "Finalizing", .outputs ["pr"], .tasks,
    .schema finalizationSchema]
  |>.startAt "Active"
  |>.transition "Active" "Finalizing" "complete_design" [
    .guardOn "all documents approved" allDocumentsApproved,
    .description "Documents approved - finalize"]
  |>.transition "Finalizing" noProject "complete_finalization" [
    .guardOn "all finalization tasks completed" allFinalizationTasksComplete,
    .description "Design finished"]
  |>.alwaysAdvance "Active" "complete_design"
  |>.alwaysAdvance "Finalizing" "complete_finalization"
  |>.prompt "Active" activePrompt
  |>.prompt "Finalizing" finalizingPrompt
  |>.orchestratorPrompt orchestratorPrompt
  |>.initializeWith (.phases phaseNames)

def blueprint : Blueprint := draft.blueprint "Active"

end Lifecycle.Design
