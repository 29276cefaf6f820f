import Lifecycle.Blueprint.Draft
import Lifecycle.Document.Tasks
import Lifecycle.Prompt
/-!
The exploration type: research topics are tasks; once all are resolved the findings are summarized,
and once all summaries are approved they are published. -/

namespace Lifecycle.Exploration

open Prompt

def phaseNames : List String := ["exploration", "finalization"]

def finalizationSchema : Schema :=
  .record "FinalizationMetadata" .forbidden [⟨"pr_url", .optional .text, false⟩]

def allTopicsResolved (d : Document) : Except Fault Bool := d.tasksOver "exploration"

/-- The summaries that exploring produced; the phase must be there. -/
def summaries (d : Document) : Except Fault (List Artifact) := do
  let p ← d.phase "exploration"
  Slot.filter "type" (fun a => .ok (a.type.holds "summary")) (← p.outputs.elements)

def allSummariesApproved (d : Document) : Except Fault Bool := do
  let found ← summaries d
  return !found.isEmpty && found.all Artifact.isApproved

def allFinalizationTasksComplete (d : Document) : Except Fault Bool :=
  d.allTasksCompleted "finalization"

def unresolvedTopics (d : Document) : Except Fault Nat := do
  let topics ← Slot.filter "is_terminal" (fun t => .ok !t.isOver) (← d.tasks "exploration")
  return topics.length

def topicLine (s : Slot Task) : Except Fault String := do
  let t ← s.having "id"
  return s!"- [{t.id.display}] {t.name.display} ({t.status.display})"

def progress (d : Document) : Except Fault String := do
  if (← d.tasks "exploration").isEmpty then
    return "No research topics identified yet. Create topics to investigate."
  else if ← allTopicsResolved d then
    return "All research topics resolved. Ready to summarize."
  else
    let count ← unresolvedTopics d
    return s!"Continue research ({count} topics remaining)."

def activePrompt : Prompt := fun scene => do
  let topics ← scene.sight.document.tasks "exploration"
  let state ← progress scene.sight.document
  ofSections [
    opening,
    fixed ("## Active Research\n\nAdd a task per research topic, investigate it and record " ++
      "`findings` outputs. Mark each topic completed or abandoned."),
    about fun _ => tasks topics,
    about fun _ => do return Text.unlines (← topics.mapM topicLine),
    fixed state,
    steps] scene

/-- The names of the topics that came to a status. -/
def topicsWith (status : TaskStatus) (d : Document) : Except Fault (List String) := do
  let topics ← Slot.filter "status" (fun t => .ok (t.status.holds status)) (← d.tasks "exploration")
  return topics.map (·.name.display)

def topicSection (kind : String) (names : List String) : String :=
  s!"### {kind} Topics: {names.length}\n\n" ++ Text.unlines (names.map ("- " ++ ·))

def abandonedTopics (d : Document) : Except Fault String := do
  let names ← topicsWith .abandoned d
  return if names.isEmpty then "" else topicSection "Abandoned" names

def summarizingPrompt : Prompt := ofSections [
  opening,
  fixed ("## Summarizing Findings\n\nSynthesize the findings into one or more `summary` " ++
    "outputs and get every summary approved."),
  about fun d => do return topicSection "Completed" (← topicsWith .completed d),
  about abandonedTopics,
  about fun d => do artifacts "Summaries" true (.ofList (← summaries d)),
  steps]

def finalizingPrompt : Prompt := ofSections [
  opening,
  fixed ("## Finalization\n\nMove the summaries into the knowledge base, open a pull " ++
    "request and record it as a `pr` output. Track each step as a finalization task."),
  about fun d => do tasks (← d.tasks "finalization"),
  steps]

def orchestratorPrompt : Prompt := ofSections [
  opening,
  fixed ("This is an exploration project: research topics, summarize the findings, " ++
    "then publish them."),
  about phases]

def draft : Draft :=
  Draft.empty "exploration"
  |>.phase "exploration" [
    .startingAt "Active", .endingAt "Summarizing", .outputs ["summary", "findings"], .tasks]
  |>.phase "finalization" [
    .startingAt "Finalizing", .endingAt "Finalizing", .outputs ["pr"], .tasks,
    .schema finalizationSchema]
  |>.startAt "Active"
  |>.transition "Active" "Summarizing" "begin_summarizing" [
    .guardOn "all research topics completed or abandoned" allTopicsResolved,
    .description "Research done - summarize the findings"]
  |>.transition "Summarizing" "Finalizing" "complete_summarizing" [
    .guardOn "all summaries approved" allSummariesApproved,
    .description "Summaries approved - finalize"]
  |>.transition "Finalizing" noProject "complete_finalization" [
    .guardOn "all finalization tasks completed" allFinalizationTasksComplete,
    .description "Exploration finished"]
  |>.alwaysAdvance "Active" "begin_summarizing"
  |>.alwaysAdvance "Summarizing" "complete_summarizing"
  |>.alwaysAdvance "Finalizing" "complete_finalization"
  |>.prompt "Active" activePrompt
  |>.prompt "Summarizing" summarizingPrompt
  |>.prompt "Finalizing" finalizingPrompt
  |>.orchestratorPrompt orchestratorPrompt
  |>.initializeWith (.phases phaseNames)

def blueprint : Blueprint := draft.blueprint "Active"

end Lifecycle.Exploration
