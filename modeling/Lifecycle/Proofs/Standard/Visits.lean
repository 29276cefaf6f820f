import Lifecycle.Proofs.Blame
import Lifecycle.Proofs.Standard.Review
import Lifecycle.Proofs.Upkeep
/-!
Runs of a project of the standard type: it is created, and then moved by itself time and again, whether
that succeeds or not, with edits in between. -/

namespace Lifecycle

namespace Standard

theorem reviewAssessment_apart (d : Document) : FailsAs Fault.Apart (reviewAssessment d) := by
  refine FailsAs.bind (d.askPhase_apart _ _ fun p => p.newestOutput?_apart _ fun _ => .ok _)
    fun found => ?_
  cases found with
  | none => exact .ok _
  | some review =>
      refine FailsAs.bind ?_ fun _ => .ok _
      cases review.metadata with
      | proper m => exact .ok _
      | stray v =>
          intro fault failed
          cases failed
          rfl

theorem determineEvent_passive (sight : Sight) (state : String) :
    FailsAs Fault.Passive (blueprint.determineEvent sight state) := by
  apply Blueprint.determineEvent_passive
  intro determiner found
  have listed : blueprint.determiners = [
      ("PlanningActive", .function fun _ => .ok "complete_planning"),
      ("ImplementationPlanning", .function fun _ => .ok "tasks_approved"),
      ("ImplementationExecuting", .function fun _ => .ok "all_tasks_complete"),
      ("FinalizeDocumentation", .function fun _ => .ok "documentation_done"),
      ("FinalizeChecks", .function fun _ => .ok "checks_done"),
      ("FinalizeDelete", .function fun _ => .ok "project_delete"),
      ("ReviewActive", .branch "ReviewActive" (fun sight => reviewAssessment sight.document)
        [("pass", "review_pass"), ("fail", "review_fail")])] := rfl
  have member := Keyed.mem_of_find? found
  simp only [listed, List.mem_cons, Prod.mk.injEq, List.not_mem_nil, or_false] at member
  rcases member with ⟨_, rfl⟩ | ⟨_, rfl⟩ | ⟨_, rfl⟩ | ⟨_, rfl⟩ | ⟨_, rfl⟩ | ⟨_, rfl⟩ | ⟨_, rfl⟩
  any_goals exact .ok _
  have asked := (reviewAssessment_apart sight.document).mono fun _ => Fault.passive_of_apart
  refine FailsAs.bind asked fun value => ?_
  split
  · exact .ok _
  · intro fault failed
    cases failed
    rfl

/-- A project at a call that is to move it by itself. -/
structure Visit where
  project : Project
  now : Timestamp

/-- Whether the call fires the transition that sends a project back from review. -/
def Visit.sentBack (v : Visit) : Bool :=
  match v.project.eventFor none with
  | .ok event =>
    match v.project.fire v.now event with
    | (.ok t, _) => t.event = "review_fail"
    | (.error _, _) => false
  | .error _ => false

variable {σ : Type} [Backend σ] {desk : Desk σ} {now : Timestamp}

/-- What a call that is to move a project by itself comes to, and whether that sends the project back. -/
inductive Outcome (desk : Desk σ) (now : Timestamp) : Except Fault Move × Desk σ → Bool → Prop where
  | refused (fault : Fault) (passive : fault.Passive) : Outcome desk now (.error fault, desk) false
  | failed (t : Transition) (member : t ∈ transitions)
      (machine : desk.project.machine = .start blueprint t.source)
      (asked : desk.project.eventFor none = .ok t.event)
      (passed : desk.project.machine.passes desk.project.document t = .ok true)
      (cause : Fault) (document : Document)
      (entered : entering now t desk.project.document = (.error cause, document)) :
      Outcome desk now
        (.error (.entryAction (desk.project.machine.arrow t) cause), desk.withDocument document) false
  | moved (t : Transition) (member : t ∈ transitions)
      (machine : desk.project.machine = .start blueprint t.source)
      (asked : desk.project.eventFor none = .ok t.event)
      (passed : desk.project.machine.passes desk.project.document t = .ok true)
      (document : Document) (entered : entering now t desk.project.document = (.ok (), document)) :
      Outcome desk now
        (Desk.settle now t.source t
          (desk.withProject { desk.project with document, machine := .start blueprint t.target }))
        (decide (t.event = "review_fail"))

/-- A call whose event passes its guard fires the transition, unless that fails on entry. -/
theorem run_advance {t : Transition} (member : t ∈ transitions)
    (machine : desk.project.machine = .start blueprint t.source)
    (asked : desk.project.eventFor none = .ok t.event)
    (passed : desk.project.machine.passes desk.project.document t = .ok true) :
    Desk.advance now desk =
      match entering now t desk.project.document with
      | (.ok _, document) =>
        Desk.settle now t.source t
          (desk.withProject { desk.project with document, machine := .start blueprint t.target })
      | (.error cause, document) =>
        (.error (.entryAction (desk.project.machine.arrow t) cause), desk.withDocument document) := by
  have source : desk.project.state = t.source := congrArg Machine.state machine
  rw [show Desk.advance now desk = _ from Desk.run_proceed now none desk, asked]
  simp only [Desk.run_fire]
  rw [run_fire now member machine passed, source]
  rcases entering now t desk.project.document with ⟨cause | ⟨⟩, document⟩
  · rfl
  · rfl

theorem Visit.sentBack_of_passes {v : Visit} {t : Transition} (member : t ∈ transitions)
    (machine : v.project.machine = .start blueprint t.source)
    (asked : v.project.eventFor none = .ok t.event)
    (passed : v.project.machine.passes v.project.document t = .ok true) :
    v.sentBack = ((entering v.now t v.project.document).1.isOk && decide (t.event = "review_fail")) := by
  simp only [sentBack, asked]
  rw [run_fire v.now member machine passed]
  rcases entering v.now t v.project.document with ⟨cause | ⟨⟩, document⟩
  · rfl
  · rfl

theorem advance_outcome {state : String} (machine : desk.project.machine = .start blueprint state)
    (now : Timestamp) :
    Outcome desk now (Desk.advance now desk) (Visit.sentBack ⟨desk.project, now⟩) := by
  cases asked : desk.project.eventFor none with
  | error fault =>
      rw [show Desk.advance now desk = _ from Desk.run_proceed now none desk, Visit.sentBack, asked]
      rw [eventFor_none machine] at asked
      exact .refused fault (determineEvent_passive _ _ _ asked)
  | ok event =>
      by_cases goes : ∃ t, desk.project.machine.transition event = .ok t ∧
          desk.project.machine.passes desk.project.document t = .ok true
      · obtain ⟨t, declared, passed⟩ := goes
        rw [machine, transition_eq_ok] at declared
        obtain ⟨member, rfl, rfl⟩ := declared
        rw [run_advance member machine asked passed,
          Visit.sentBack_of_passes (v := ⟨desk.project, now⟩) member machine asked passed]
        rcases entered : entering now t desk.project.document with ⟨cause | ⟨⟩, document⟩
        · exact .failed t member machine asked passed cause document entered
        · exact .moved t member machine asked passed document entered
      · obtain ⟨fault, passive, refused⟩ := Project.fire_refused
          (fun t declared passed => goes ⟨t, declared, passed⟩) now
        rw [show Desk.advance now desk = _ from Desk.run_proceed now none desk, Visit.sentBack, asked]
        simp only [Desk.run_fire, refused]
        exact .refused fault passive

theorem Outcome.machine {result : Except Fault Move × Desk σ} {back : Bool}
    (outcome : Outcome desk now result back) {state : String}
    (start : desk.project.machine = .start blueprint state) :
    ∃ state, result.2.project.machine = .start blueprint state := by
  cases outcome with
  | refused fault passive => exact ⟨state, start⟩
  | failed t member machine asked passed cause document entered => exact ⟨state, start⟩
  | moved t member machine asked passed document entered =>
      exact ⟨t.target, Desk.settle_machine _ _ _ _⟩

theorem planned_listed : ∀ entry ∈ blueprint.phases, entry.1 ∈ phaseNames := by decide

/-- A new project of the type: planning has started, and nothing else. -/
theorem created_shows {registry : Registry} {r : Request} {archive after : Archive σ} {p : Project}
    (made : Project.create registry now r archive = (.ok p, after)) (standard : p.blueprint = blueprint) :
    p.machine = .start blueprint "PlanningActive" ∧
      ∃ fresh : String → Phase, (∀ name, ∃ artifacts, fresh name = Phase.fresh now artifacts) ∧
        p.document.Shows phaseNames (Function.update fresh "planning" ((fresh "planning").start now)) := by
  have fills : p.blueprint.initializer = some (.phases phaseNames) :=
    congrArg Blueprint.initializer standard
  obtain ⟨machine, fresh, isFresh, shows⟩ := Project.created_shows made fills
    (standard ▸ planned_listed)
  rw [standard] at machine shows
  exact ⟨machine, fresh, isFresh, shows⟩

/-- Runs of a project of the type, with the calls that were to move it by itself, the last first. -/
inductive Run (edits : Document → Document → Prop) : List Visit → Desk σ → Prop where
  | created {registry : Registry} {now : Timestamp} {r : Request} {archive after : Archive σ}
      {p : Project} (made : Project.create registry now r archive = (.ok p, after))
      (standard : p.blueprint = blueprint) : Run edits [] ⟨p, after⟩
  | edited {visits : List Visit} {desk : Desk σ} {document : Document} (run : Run edits visits desk)
      (change : edits desk.project.document document) : Run edits visits (desk.withDocument document)
  | advanced {visits : List Visit} {desk : Desk σ} (now : Timestamp) (run : Run edits visits desk) :
      Run edits (⟨desk.project, now⟩ :: visits) (Desk.advance now desk).2

theorem Run.machine {edits : Document → Document → Prop} {visits : List Visit}
    (run : Run edits visits desk) : ∃ state, desk.project.machine = .start blueprint state := by
  induction run with
  | created made standard => exact ⟨_, (created_shows made standard).1⟩
  | edited run change ih => exact ih
  | advanced now run ih =>
      obtain ⟨state, machine⟩ := ih
      exact (advance_outcome machine now).machine machine

/-- What a caller may do to a document: change the outputs, the tasks and the metadata of its phases. -/
def Touches (d edited : Document) : Prop :=
  ∀ name p, d.phase name = .ok p →
    ∃ outputs tasks metadata, edited.phase name = .ok { p with outputs, tasks, metadata }

theorem touches_modifyPhase {change : Phase → Phase}
    (parts : ∀ p, ∃ outputs tasks metadata, change p = { p with outputs, tasks, metadata })
    (name : String) (d : Document) : Touches d (d.modifyPhase name change) := by
  intro other p there
  by_cases same : name = other
  · subst same
    obtain ⟨outputs, tasks, metadata, changed⟩ := parts p
    exact ⟨outputs, tasks, metadata, changed ▸ Document.phase_modifyPhase there change⟩
  · exact ⟨p.outputs, p.tasks, p.metadata, (Document.phase_modifyPhase_ne same change).trans there⟩

/-- Where a run gets to that goes on with calls at one time, each after an edit. -/
def follow (now : Timestamp) (edits : List (Document → Document)) (start : List Visit × Desk σ) :
    List Visit × Desk σ :=
  edits.foldl (fun (visits, desk) edit =>
    let changed := desk.withDocument (edit desk.project.document)
    (⟨changed.project, now⟩ :: visits, (Desk.advance now changed).2)) start

theorem Run.follow {change : Document → Document → Prop} {edits : List (Document → Document)}
    {start : List Visit × Desk σ} (run : Run change start.1 start.2) (now : Timestamp)
    (each : ∀ edit ∈ edits, ∀ d, change d (edit d)) :
    Run change (follow now edits start).1 (follow now edits start).2 := by
  induction edits generalizing start with
  | nil => exact run
  | cons edit rest ih =>
      have changed := run.edited (each edit List.mem_cons_self start.2.project.document)
      exact ih (.advanced now changed) fun other member => each other (List.mem_cons_of_mem _ member)

/-- Whether a new project, kept in memory, gets through the edits to where a test passes. -/
def reaches (b : Blueprint) (edits : List (Document → Document))
    (test : List Visit → Desk MemoryStore → Bool) : Bool :=
  let request : Request := { description := "Demo", name := some "demo", type := some "standard" }
  match Project.create [("standard", b)] newYear request ⟨⟨none, 0⟩, []⟩ with
  | (.ok p, after) =>
    let (visits, desk) := follow newYear edits ([], ⟨p, after⟩)
    test visits desk
  | (.error _, _) => false

theorem run_of_reaches {edits : List (Document → Document)} {test : List Visit → Desk MemoryStore → Bool}
    (passes : reaches blueprint edits test = true) (change : Document → Document → Prop)
    (each : ∀ edit ∈ edits, ∀ d, change d (edit d)) :
    ∃ visits desk, Run change visits desk ∧ test visits desk = true := by
  rw [reaches] at passes
  split at passes
  · next p after made =>
      obtain ⟨b, _, _, _, known, _, _, _, machine, _⟩ := Project.create_ok made
      obtain rfl : blueprint = b := Except.ok.inj known
      have type : p.blueprint = blueprint := congrArg Machine.blueprint machine
      exact ⟨_, _, (Run.created made type).follow newYear each, passes⟩
  · cases passes

/-- The plan has been written and approved. -/
def planned (d : Document) : Document :=
  let list : Artifact := ⟨.proper "task_list", .proper "tasks.md", .proper true, .proper newYear,
    .proper []⟩
  d.modifyPhase "planning" fun p => { p with outputs := .ofList [list] }

/-- The one task has been done, and the tasks have been approved. -/
def built (d : Document) : Document :=
  let task : Task := ⟨.proper "010", .proper "Build", .proper "implementation", .proper .completed,
    .proper newYear, .proper newYear, .proper none, .proper none, .proper 1, .proper "", .none, .none,
    .proper []⟩
  d.modifyPhase "implementation" fun p =>
    { p with tasks := .ofList [task], metadata := .proper [("tasks_approved", .flag true)] }

/-- A list of so many lists, one inside another. -/
def nested : Nat → Value
  | 0 => .list []
  | n + 1 => .list [nested n]

def failing : Metadata := [("assessment", .text "fail")]

/-- One more review, with what it says, has been approved. -/
def reviewedWith (metadata : Metadata) (d : Document) : Document :=
  let review : Artifact := ⟨.proper "review", .proper "review.md", .proper true, .proper newYear,
    .proper metadata⟩
  d.modifyPhase "review" fun p => { p with outputs := p.outputs.map (· ++ [.proper review]) }

theorem touches_id (d : Document) : Touches d (id d) :=
  fun _ p there => ⟨p.outputs, p.tasks, p.metadata, there⟩

theorem touches_planned (d : Document) : Touches d (planned d) :=
  touches_modifyPhase (fun p => ⟨_, p.tasks, p.metadata, rfl⟩) _ d

theorem touches_built (d : Document) : Touches d (built d) :=
  touches_modifyPhase (fun p => ⟨p.outputs, _, _, rfl⟩) _ d

theorem touches_reviewedWith (metadata : Metadata) (d : Document) :
    Touches d (reviewedWith metadata d) :=
  touches_modifyPhase (fun p => ⟨_, p.tasks, p.metadata, rfl⟩) _ d

end Standard

end Lifecycle
