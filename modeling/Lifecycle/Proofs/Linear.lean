import Lifecycle.Proofs.Standard.Rounds
import Lifecycle.Proofs.Tracking
import Lifecycle.Types.BuiltIn
/-!
Types without a way back. Each of their phases runs once, and the state of a project says where every
phase stands, on every run. -/

namespace Lifecycle

/-- Dropping a result changes nothing else. -/
theorem Attempt.run_bind_unit {s α : Type} (work : Attempt s α) (state : s) :
    ((work >>= fun _ => pure ()) state).2 = (work state).2 := by
  rw [run_bind]
  rcases work state with ⟨fault | a, after⟩
  · rfl
  · rfl

namespace PhaseStatus

/-- What a phase is after it has ended. -/
def ended (status : PhaseStatus) : PhaseStatus := if status = .failed then .failed else .completed

/-- What a phase is after it has begun. -/
def begun (status : PhaseStatus) : PhaseStatus := if status = .pending then .inProgress else status

theorem ended_ended (status : PhaseStatus) : status.ended.ended = status.ended := by
  cases status <;> rfl

theorem begun_begun (status : PhaseStatus) : status.begun.begun = status.begun := by
  cases status <;> rfl

end PhaseStatus

/-- A phase of a status that has never been taken up again. -/
structure Phase.Stands (p : Phase) (status : PhaseStatus) : Prop where
  status : p.status = .proper status
  iteration : p.iteration = .proper 0

namespace Phase.Stands

variable {p : Phase} {status : PhaseStatus}

theorem start (stands : p.Stands status) (now : Timestamp) : (p.start now).Stands status.begun :=
  ⟨start_status stands.status, (start_iteration).trans stands.iteration⟩

theorem complete (stands : p.Stands status) (now : Timestamp) :
    (p.complete now).Stands status.ended :=
  ⟨complete_status stands.status, (complete_iteration).trans stands.iteration⟩

end Phase.Stands

namespace Edit

theorem changeAll_stands {change : String → Phase → Phase} {effect : PhaseStatus → PhaseStatus}
    (each : ∀ (name : String) (p : Phase) (status : PhaseStatus),
      p.Stands status → (change name p).Stands (effect status))
    (again : ∀ status, effect (effect status) = effect status) (list : List String)
    {phases : String → Phase} {name : String} {status : PhaseStatus}
    (stands : (phases name).Stands status) :
    (changeAll change list phases name).Stands (if name ∈ list then effect status else status) := by
  induction list generalizing phases status with
  | nil => exact stands
  | cons first rest ih =>
      rw [changeAll, List.foldl_cons, ← changeAll]
      by_cases here : name = first
      · have changed : (Function.update phases first (change first (phases first)) name).Stands
            (effect status) := by
          rw [← here, Function.update_self]
          exact each _ _ _ stands
        have later := ih changed
        rw [again, ite_self] at later
        rw [if_pos (here ▸ List.mem_cons_self)]
        exact later
      · have same : (Function.update phases first (change first (phases first)) name).Stands
            status := by
          rw [Function.update_of_ne here]
          exact stands
        simp only [List.mem_cons, here, false_or]
        exact ih same

/-- What becomes of the status of a phase over a transition of a type. -/
def statusAfter (b : Blueprint) (t : Transition) (name : String) (status : PhaseStatus) :
    PhaseStatus :=
  if t.source = t.target then status
  else
    let left := if name ∈ b.phasesEndingAt t.source then status.ended else status
    if name ∈ b.phasesStartingAt t.target then left.begun else left

theorem broughtUp_stands (now : Timestamp) (b : Blueprint) {t : Transition}
    (never : t.failedPhase = none) {phases : String → Phase} {name : String} {status : PhaseStatus}
    (stands : (phases name).Stands status) :
    (broughtUp now b t.source t phases name).Stands (statusAfter b t name status) := by
  rw [broughtUp, statusAfter]
  split
  · exact stands
  · apply changeAll_stands (fun _ _ _ stands => stands.start now) PhaseStatus.begun_begun
    apply changeAll_stands (fun _ p _ stands => ?_) PhaseStatus.ended_ended _ stands
    rw [finished, never, if_neg (Option.some_ne_none _).symm]
    exact stands.complete now

end Edit

/-- A type without a way back, with where its phases stand in each of its states. -/
structure Course where
  blueprint : Blueprint
  phases : List String
  standings : Keyed String (Keyed String PhaseStatus)
  fills : blueprint.initializer = some (.phases phases)
  listed : ∀ entry ∈ blueprint.phases, entry.1 ∈ phases
  distinct : (blueprint.transitions.map Transition.trigger).Nodup
  plain : ∀ t ∈ blueprint.transitions, t.onExit.isNone ∧ t.onEntry.isNone ∧ t.failedPhase = none
  onward : ∀ t ∈ blueprint.transitions, t.source ≠ noProject
  begins : ∀ name ∈ phases, (Keyed.find? standings blueprint.initial).bind (Keyed.find? · name) =
    some (if name ∈ blueprint.phasesStartingAt blueprint.initial then .inProgress else .pending)
  follows : ∀ t ∈ blueprint.transitions, ∀ name ∈ phases,
    (Keyed.find? standings t.target).bind (Keyed.find? · name) =
      ((Keyed.find? standings t.source).bind (Keyed.find? · name)).map
        (Edit.statusAfter blueprint t name)

namespace Course

/-- Where a phase is to stand in a state. -/
def standing (c : Course) (state name : String) : Option PhaseStatus :=
  (Keyed.find? c.standings state).bind (Keyed.find? · name)

/-- A project whose phases stand where its state says, none of them taken up again. -/
structure Holds (c : Course) (p : Project) : Prop where
  machine : p.machine = .start c.blueprint p.state
  phases : ∃ phases, p.document.Shows c.phases phases ∧
    ∀ name ∈ c.phases, ∃ status, c.standing p.state name = some status ∧ (phases name).Stands status

variable {c : Course} {p : Project} {σ : Type} [Backend σ] {desk : Desk σ} {now : Timestamp}

theorem transition_eq_ok {state event : String} {t : Transition}
    (declared : (Machine.start c.blueprint state).transition event = .ok t) :
    t ∈ c.blueprint.transitions ∧ t.source = state := by
  rw [Machine.transition_eq_ok, Machine.lookup_eq_some_iff c.distinct, Blueprint.transitionsFrom,
    List.mem_filter, decide_eq_true_iff] at declared
  exact declared.1

/-- Without actions firing does nothing to a project but move its machine, along one of the transitions
that leave the state it stands in. -/
theorem fire_outcome (machine : p.machine = .start c.blueprint p.state) (now : Timestamp)
    (event : String) :
    (∃ fault, p.fire now event = (.error fault, p)) ∨
      ∃ t ∈ c.blueprint.transitions, t.source = p.state ∧
        p.fire now event = (.ok t, { p with machine := .start c.blueprint t.target }) := by
  by_cases goes : ∃ t, p.machine.transition event = .ok t ∧ p.machine.passes p.document t = .ok true
  · have ⟨t, declared, passed⟩ := goes
    have known := declared
    rw [machine] at known
    have ⟨member, source⟩ := transition_eq_ok known
    have ⟨noExit, noEntry, _⟩ := c.plain t member
    have fired : p.fire now event = _ := Project.run_fire_plain declared passed
      (Option.isNone_iff_eq_none.mp noExit) (Option.isNone_iff_eq_none.mp noEntry)
    rw [machine] at fired
    exact .inr ⟨t, member, source, fired⟩
  · have ⟨fault, _, refused⟩ :=
      Project.fire_refused (fun t declared passed => goes ⟨t, declared, passed⟩) now
    exact .inl ⟨fault, refused⟩

theorem Holds.settled (holds : c.Holds p) {t : Transition} (member : t ∈ c.blueprint.transitions)
    (source : t.source = p.state) (now : Timestamp) (archive : Archive σ) :
    c.Holds (Desk.settle now t.source t
      ⟨{ p with machine := .start c.blueprint t.target }, archive⟩).2.project := by
  have ⟨phases, shows, standing⟩ := holds.phases
  let moved : Desk σ := ⟨{ p with machine := .start c.blueprint t.target }, archive⟩
  have machine : (Desk.settle now t.source t moved).2.project.machine = .start c.blueprint t.target :=
    Desk.settle_machine now t.source t moved
  have state : (Desk.settle now t.source t moved).2.project.state = t.target :=
    congrArg Machine.state machine
  constructor
  · rw [state]
    exact machine
  · refine ⟨_, (Desk.settle_shows now t.source t moved c.listed shows).2, ?_⟩
    intro name known
    have ⟨status, before, stands⟩ := standing name known
    have follows := c.follows t member name known
    rw [← source, Course.standing] at before
    rw [before] at follows
    rw [state]
    exact ⟨_, follows, Edit.broughtUp_stands now c.blueprint (c.plain t member).2.2 stands⟩

theorem Holds.of_document (holds : c.Holds p) {other : Project} (machine : other.machine = p.machine)
    (phases : other.document.phases = p.document.phases) : c.Holds other := by
  have state : other.state = p.state := congrArg Machine.state machine
  have ⟨shown, shows, standing⟩ := holds.phases
  constructor
  · rw [state, machine]
    exact holds.machine
  · rw [state]
    exact ⟨shown, shows.of_phases_eq phases, standing⟩

theorem Holds.fired (holds : c.Holds desk.project) (now : Timestamp) (event : String) :
    c.Holds (Desk.fire now event desk).2.project ∧
      (desk.project.state = noProject → (Desk.fire now event desk).2.project.state = noProject) := by
  rw [Desk.run_fire]
  cases fire_outcome holds.machine now event with
  | inl refused =>
      have ⟨fault, same⟩ := refused
      rw [same]
      exact ⟨holds, id⟩
  | inr moved =>
      have ⟨t, member, source, fired⟩ := moved
      rw [fired]
      simp only [← source]
      refine ⟨holds.settled member source now desk.archive, ?_⟩
      intro ended
      exact absurd ended (c.onward t member)

theorem Holds.called (holds : c.Holds desk.project) {call : Call} (stores : call.stores = true) :
    c.Holds (call.perform desk).2.project ∧
      (desk.project.state = noProject → (call.perform desk).2.project.state = noProject) := by
  cases call with
  | fire now event =>
      rw [Call.perform, Attempt.run_bind_unit]
      exact holds.fired now event
  | advance now =>
      rw [Call.perform, Attempt.run_bind_unit, Desk.advance,
        Attempt.run_bind_ok (Attempt.run_get _), Attempt.ofExcept_bind]
      cases desk.project.determineEvent with
      | error fault => exact ⟨holds, id⟩
      | ok event => exact holds.fired now event
  | save now =>
      have machine := Desk.keep_machine now desk
      refine ⟨holds.of_document machine (Desk.keep_phases now desk), ?_⟩
      intro ended
      exact (congrArg Machine.state machine).trans ended
  | discover => cases stores
  | dryRun event => cases stores
  | edit change => cases stores

/-- Edits of outputs, tasks and metadata leave every phase where it stands. -/
theorem Holds.touched (holds : c.Holds p) {d : Document} (touched : Standard.Touches p.document d) :
    c.Holds { p with document := d } := by
  have ⟨phases, shows, standing⟩ := holds.phases
  have named (name : String) : ∃ q : Phase, (name ∈ c.phases → d.phase name = .ok q) ∧
      q.status = (phases name).status ∧ q.iteration = (phases name).iteration := by
    by_cases member : name ∈ c.phases
    · have ⟨outputs, tasks, metadata, there⟩ := touched name _ (shows name member)
      exact ⟨_, fun _ => there, rfl, rfl⟩
    · exact ⟨phases name, fun here => absurd here member, rfl, rfl⟩
  choose others othersShow status iteration using named
  refine ⟨holds.machine, others, othersShow, ?_⟩
  intro name known
  have ⟨stated, listed, stands⟩ := standing name known
  exact ⟨stated, listed, (status name).trans stands.status, (iteration name).trans stands.iteration⟩

theorem Holds.created {registry : Registry} {r : Request} {archive after : Archive σ}
    (made : Project.create registry now r archive = (.ok p, after))
    (type : p.blueprint = c.blueprint) : c.Holds p := by
  have fills : p.blueprint.initializer = some (.phases c.phases) :=
    (congrArg Blueprint.initializer type).trans c.fills
  have ⟨machine, fresh, isFresh, shows⟩ := Project.created_shows made fills (type ▸ c.listed)
  rw [type] at machine shows
  have state : p.state = c.blueprint.initial := congrArg Machine.state machine
  refine ⟨state ▸ machine, _, shows, ?_⟩
  intro name known
  have ⟨artifacts, same⟩ := isFresh name
  have begins : (fresh name).Stands .pending := by
    rw [same]
    exact ⟨rfl, rfl⟩
  have started := Edit.changeAll_stands (fun _ _ _ stands => Phase.Stands.start stands now)
    PhaseStatus.begun_begun (c.blueprint.phasesStartingAt c.blueprint.initial) begins
  refine ⟨_, ?_, started⟩
  rw [state]
  exact c.begins name known

/-- Runs of a project of a type: it is created, and then moved or stored time and again, whether that
succeeds or not, with edits in between. -/
inductive Run (c : Course) : Desk σ → Prop where
  | created {registry : Registry} {now : Timestamp} {r : Request} {archive after : Archive σ}
      {p : Project} (made : Project.create registry now r archive = (.ok p, after))
      (type : p.blueprint = c.blueprint) : Run c ⟨p, after⟩
  | edited {desk : Desk σ} {document : Document} (run : Run c desk)
      (change : Standard.Touches desk.project.document document) : Run c (desk.withDocument document)
  | called {desk : Desk σ} (run : Run c desk) (call : Call) (stores : call.stores = true) :
      Run c (call.perform desk).2

theorem Run.holds (run : c.Run desk) : c.Holds desk.project := by
  induction run with
  | created made type => exact .created made type
  | edited run change ih => exact ih.touched change
  | called run call stores ih => exact (ih.called stores).1

end Course

def Exploration.course : Course where
  blueprint := blueprint
  phases := phaseNames
  standings := [
    ("Active", [("exploration", .inProgress), ("finalization", .pending)]),
    ("Summarizing", [("exploration", .inProgress), ("finalization", .pending)]),
    ("Finalizing", [("exploration", .completed), ("finalization", .inProgress)]),
    ("NoProject", [("exploration", .completed), ("finalization", .completed)])]
  fills := rfl
  listed := by decide
  distinct := by decide
  plain := by decide
  onward := by decide
  begins := by decide
  follows := by decide

def Design.course : Course where
  blueprint := blueprint
  phases := phaseNames
  standings := [
    ("Active", [("design", .inProgress), ("finalization", .pending)]),
    ("Finalizing", [("design", .completed), ("finalization", .inProgress)]),
    ("NoProject", [("design", .completed), ("finalization", .completed)])]
  fills := rfl
  listed := by decide
  distinct := by decide
  plain := by decide
  onward := by decide
  begins := by decide
  follows := by decide

def Breakdown.course : Course where
  blueprint := blueprint
  phases := phaseNames
  standings := [
    ("Active", [("breakdown", .inProgress)]),
    ("Publishing", [("breakdown", .inProgress)]),
    ("NoProject", [("breakdown", .completed)])]
  fills := rfl
  listed := by decide
  distinct := by decide
  plain := by decide
  onward := by decide
  begins := by decide
  follows := by decide

/-- The types without a way back that are always at hand. -/
def Course.builtIn : List Course := [Exploration.course, Design.course, Breakdown.course]

/-- On every run of such a type each phase stands where the state of the project says, and none is ever
taken up again. No call leaves the state without a project. -/
theorem Course.builtIn_holds {σ : Type} [Backend σ] :
    ∀ c ∈ builtIn, ∀ desk : Desk σ, c.Run desk →
      c.Holds desk.project ∧ ∀ call : Call, call.stores = true →
        desk.project.state = noProject → (call.perform desk).2.project.state = noProject := by
  intro c _ desk run
  constructor
  · exact run.holds
  · intro call stores
    exact (run.holds.called stores).2

namespace Design

/-- A new design, kept in memory. -/
def begun? : Option (Desk MemoryStore) :=
  let request : Request := { description := "Demo", name := some "demo", type := some "design" }
  match Project.create [("design", blueprint)] newYear request ⟨⟨none, 0⟩, []⟩ with
  | (.ok p, archive) => some ⟨p, archive⟩
  | (.error _, _) => none

/-- The one task of a phase has been done. -/
def worked (phase : String) (d : Document) : Document :=
  let task : Task := ⟨.proper "010", .proper "Write", .proper phase, .proper .completed,
    .proper newYear, .proper newYear, .proper none, .proper none, .proper 1, .proper "", .none, .none,
    .proper []⟩
  d.modifyPhase phase fun p => { p with tasks := .ofList [task] }

/-- A phase is worked on and the project moved by itself. -/
def goesOn (phase : String) (desk : Desk MemoryStore) : Desk MemoryStore :=
  (Call.perform (.advance newYear) (desk.withDocument (worked phase desk.project.document))).2

theorem run_goesOn {desk : Desk MemoryStore} (run : course.Run desk) (phase : String) :
    course.Run (goesOn phase desk) :=
  .called (.edited run (Standard.touches_modifyPhase (fun p => ⟨p.outputs, _, p.metadata, rfl⟩) _ _))
    _ rfl

/-- A design that was finished, and then called for once more. -/
theorem course_ends :
    ∃ desk : Desk MemoryStore, course.Run desk ∧ course.Holds desk.project ∧
      desk.project.state = noProject ∧
      ((Call.fire newYear "complete_design").perform desk).2.project.state = noProject := by
  have ends : (begun?.map fun desk =>
      (goesOn "finalization" (goesOn "design" desk)).project.state) = some noProject := by
    decide +kernel
  have ⟨desk, made, ended⟩ := Option.map_eq_some_iff.mp ends
  have begins : course.Run desk := by
    rw [begun?] at made
    split at made
    · next p archive created =>
      obtain rfl := Option.some.inj made
      have ⟨b, _, _, _, known, _, _, _, machine, _⟩ := Project.create_ok created
      obtain rfl : blueprint = b := Except.ok.inj known
      exact .created created (congrArg Machine.blueprint machine)
    · cases made
  have run := run_goesOn (run_goesOn begins "design") "finalization"
  have listed : course ∈ Course.builtIn := List.mem_cons_of_mem _ List.mem_cons_self
  have ⟨holds, stays⟩ := Course.builtIn_holds course listed _ run
  exact ⟨_, run, holds, ended, stays (.fire newYear "complete_design") rfl ended⟩

end Design

end Lifecycle
