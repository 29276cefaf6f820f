import Lifecycle.Proofs.Accepted
import Lifecycle.Proofs.Unsaved
import Lifecycle.Types.Standard
/-!
The standard type as it is built: its transitions one by one, and the event that each state asks for. -/

namespace Lifecycle

/-- A guard on the document alone passes if its test does. -/
theorem Machine.passes_guardOn {m : Machine} {d : Document} {t : Transition} {text : String}
    {test : Document → Except Fault Bool}
    (guard : t.guard = some ⟨text, fun sight => test sight.document⟩) :
    m.passes d t = .ok true ↔ test d = .ok true := by
  simp only [passes, guard, sight]
  rcases test d with fault | passed
  · constructor
    · intro passes
      cases passes
    · intro passes
      cases passes
  · exact Iff.rfl

namespace Standard

def begin : Transition :=
  .make noProject "PlanningActive" "project_init" [.description "Start a new project"]

def completePlanning : Transition :=
  .make "PlanningActive" "ImplementationPlanning" "complete_planning" [
    .guardOn "planning task_list output approved" planningApproved,
    .description "Planning done - break the plan into tasks"]

def approveTasks : Transition :=
  .make "ImplementationPlanning" "ImplementationExecuting" "tasks_approved" [
    .guardOn "tasks created and tasks_approved set" tasksApproved,
    .description "Tasks approved - start executing them"]

def completeTasks : Transition :=
  .make "ImplementationExecuting" "ReviewActive" "all_tasks_complete" [
    .guardOn "all implementation tasks completed or abandoned" implementationDone,
    .onEntry (.ofEdit startReviewRound),
    .description "Implementation done - review it"]

def failReview : Transition :=
  .make "ReviewActive" "ImplementationPlanning" "review_fail" [
    .guardOn "latest review approved" latestReviewApproved,
    .onEntry (.ofEdit rework),
    .failing "review",
    .description "Review failed - return to implementation planning"]

def passReview : Transition :=
  .make "ReviewActive" "FinalizeDocumentation" "review_pass" [
    .guardOn "latest review approved" latestReviewApproved,
    .description "Review passed - proceed to finalization"]

def finishDocumentation : Transition :=
  .make "FinalizeDocumentation" "FinalizeChecks" "documentation_done" [
    .description "Documentation updated - run final checks"]

def finishChecks : Transition :=
  .make "FinalizeChecks" "FinalizeDelete" "checks_done" [
    .description "Checks done - clean up the project"]

def finishProject : Transition :=
  .make "FinalizeDelete" noProject "project_delete" [
    .guardOn "finalize project_deleted set" projectDeleted,
    .description "Project finished"]

/-- In the order of the calls; of the two ways out of a review the failure comes first. -/
def transitions : List Transition := [
  begin, completePlanning, approveTasks, completeTasks, failReview, passReview, finishDocumentation,
  finishChecks, finishProject]

theorem sorted_verdicts : Text.sorted ["pass", "fail"] = ["fail", "pass"] := by
  simp [Text.sorted, List.mergeSort]

theorem draft_transitions : draft.transitions = transitions := by
  show [begin, completePlanning, approveTasks, completeTasks] ++
    ((Text.sorted ["pass", "fail"]).filterMap fun value =>
      Keyed.find? [("pass", passReview), ("fail", failReview)] value) ++
    [finishDocumentation, finishChecks, finishProject] = transitions
  rw [sorted_verdicts]
  rfl

/-- The type, with its transitions spelled out. -/
def listed : Blueprint := { blueprint with transitions := transitions }

theorem blueprint_eq : blueprint = listed :=
  congrArg (fun ts => { blueprint with transitions := ts }) draft_transitions

theorem build_draft : draft.build = .ok blueprint := by
  have accepted : (draft.checkTransitions "PlanningActive"
      (Draft.reachable transitions "PlanningActive") transitions []).isOk = true := by decide +kernel
  refine Draft.build_eq "PlanningActive" rfl (by decide) rfl ?_
  rw [draft_transitions]
  generalize draft.checkTransitions "PlanningActive" (Draft.reachable transitions "PlanningActive")
    transitions [] = checked at accepted ⊢
  rcases checked with fault | ⟨⟩
  · cases accepted
  · rfl

theorem transitionsFrom_eq (state : String) :
    blueprint.transitionsFrom state = transitions.filter fun t => t.source = state := by
  rw [blueprint_eq]
  rfl

theorem transition_eq_ok {state event : String} {t : Transition} :
    (Machine.start blueprint state).transition event = .ok t ↔
      t ∈ transitions ∧ t.source = state ∧ t.event = event := by
  rw [Machine.transition_eq_ok, Machine.lookup_eq_some_iff (Draft.build_distinct build_draft),
    transitionsFrom_eq, List.mem_filter, decide_eq_true_iff, and_assoc]

/-- What a call fires is one of the transitions from the state that the project is in. -/
theorem fires_listed {p moved : Project} {state : String} {now : Timestamp} {event : Option String}
    {t : Transition} (machine : p.machine = .start blueprint state) (fires : p.Fires now event t moved) :
    t ∈ transitions ∧ t.source = state ∧ p.eventFor event = .ok t.event ∧
      p.machine.passes p.document t = .ok true ∧ p.fire now t.event = (.ok t, moved) := by
  obtain ⟨name, asked, fired⟩ := fires
  obtain ⟨declared, passed, _⟩ := Project.fire_ok fired
  rw [machine] at declared
  obtain ⟨member, leaves, rfl⟩ := transition_eq_ok.mp declared
  exact ⟨member, leaves, asked, passed, fired⟩

theorem onExit_none {t : Transition} (member : t ∈ transitions) : t.onExit = none := by
  simp only [transitions, List.mem_cons, List.not_mem_nil, or_false] at member
  rcases member with rfl | rfl | rfl | rfl | rfl | rfl | rfl | rfl | rfl <;> rfl

/-- What a transition does to the document on entry. -/
def entering (now : Timestamp) (t : Transition) : Edit Unit :=
  match t.event with
  | "all_tasks_complete" => startReviewRound now
  | "review_fail" => rework now
  | _ => pure ()

theorem onEntry_cases {t : Transition} (member : t ∈ transitions) :
    (t.onEntry = none ∧ ∀ now, entering now t = pure ()) ∨
      t.onEntry = some (.ofEdit fun now => entering now t) := by
  simp only [transitions, List.mem_cons, List.not_mem_nil, or_false] at member
  rcases member with rfl | rfl | rfl | rfl | rfl | rfl | rfl | rfl | rfl
  · exact .inl ⟨rfl, fun _ => rfl⟩
  · exact .inl ⟨rfl, fun _ => rfl⟩
  · exact .inl ⟨rfl, fun _ => rfl⟩
  · exact .inr rfl
  · exact .inr rfl
  · exact .inl ⟨rfl, fun _ => rfl⟩
  · exact .inl ⟨rfl, fun _ => rfl⟩
  · exact .inl ⟨rfl, fun _ => rfl⟩
  · exact .inl ⟨rfl, fun _ => rfl⟩

/-- Where its guard passes, a transition fires if what it does on entry does not fail, and else fails as
an action. -/
theorem run_fire {p : Project} (now : Timestamp) {t : Transition} (member : t ∈ transitions)
    (machine : p.machine = .start blueprint t.source)
    (passed : p.machine.passes p.document t = .ok true) :
    p.fire now t.event =
      match entering now t p.document with
      | (.ok _, document) => (.ok t, { p with document, machine := .start blueprint t.target })
      | (.error fault, document) =>
        (.error (.entryAction (p.machine.arrow t) fault), { p with document }) := by
  have declared : p.machine.transition t.event = .ok t := by
    rw [machine]
    exact transition_eq_ok.mpr ⟨member, rfl, rfl⟩
  have target : p.machine.moved t.target = .start blueprint t.target := by
    rw [machine]
    rfl
  rcases onEntry_cases member with ⟨noEntry, nothing⟩ | entry
  · rw [Project.run_fire_plain declared passed (onExit_none member) noEntry, nothing, target]
    rfl
  · rw [Project.run_fire_edit declared passed (onExit_none member) entry, target]
    rcases entering now t p.document with ⟨fault | ⟨⟩, document⟩
    · rfl
    · rfl

theorem eventFor_none {p : Project} {state : String} (machine : p.machine = .start blueprint state) :
    p.eventFor none = blueprint.determineEvent p.sight state := by
  rw [Project.eventFor, Project.determineEvent, Project.blueprint, Project.state, machine]
  rfl

theorem determineEvent_ended (sight : Sight) :
    blueprint.determineEvent sight noProject = .error (.noDeterminer noProject) := rfl

/-- In a review the assessment decides. -/
theorem review_determiner : Keyed.find? blueprint.determiners "ReviewActive" =
    some (.branch "ReviewActive" (fun sight => reviewAssessment sight.document)
      [("pass", "review_pass"), ("fail", "review_fail")]) := rfl

/-- In a review the event is that of the assessment, if there is one for it. -/
theorem determineEvent_review {sight : Sight} {event : String} :
    blueprint.determineEvent sight "ReviewActive" = .ok event ↔
      (event = "review_pass" ∧ reviewAssessment sight.document = .ok "pass") ∨
        (event = "review_fail" ∧ reviewAssessment sight.document = .ok "fail") := by
  rw [Blueprint.determineEvent, review_determiner]
  simp only [Determiner.choose, bind, Except.bind]
  rcases reviewAssessment sight.document with fault | value
  · simp only
    constructor
    · intro chosen
      split at chosen <;> cases chosen
    · rintro (⟨_, same⟩ | ⟨_, same⟩) <;> cases same
  · simp only [Keyed.find?, Except.ok.injEq, eq_comm (a := event), eq_comm (a := value)]
    by_cases passed : "pass" = value
    · subst passed
      simp
    · by_cases failed : "fail" = value
      · subst failed
        simp
      · simp only [passed, failed, and_false, or_false, iff_false, if_false]
        intro chosen
        cases chosen

end Standard

end Lifecycle
