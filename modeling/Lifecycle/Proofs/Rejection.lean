import Lifecycle.Proofs.Blame
import Lifecycle.Proofs.Refused
/-!
What a call that moves a project leaves behind when it fails. What is refused changes nothing and comes to
the same whatever actions there are. What fails in an action leaves the machine and the storage as they
were, and the document as the actions left it. -/

namespace Lifecycle

/-- What actions work on. -/
def Project.piece (p : Project) : Workpiece := ⟨p.document, p.journal⟩

def Project.withPiece (p : Project) (piece : Workpiece) : Project :=
  { p with document := piece.document, journal := piece.journal }

/-- An action, if there is one, runs to its end. -/
def Runs (action : Option Action) (moment : Moment) (before after : Workpiece) : Prop :=
  match action with
  | none => after = before
  | some action => action moment before = (.ok (), after)

/-- What the actions of a transition come to. The exit action sees its source, and the entry action, which
runs only after that, its target. -/
inductive Passage (now : Timestamp) (source : String) (t : Transition) (before : Workpiece) :
    Except Fault Unit → Workpiece → Prop where
  | exitFails {exit : Action} {cause : Fault} {after : Workpiece} (has : t.onExit = some exit)
      (fails : exit ⟨now, .proper source⟩ before = (.error cause, after)) :
      Passage now source t before (.error (.exitAction ⟨source, t.target, t.event⟩ cause)) after
  | entryFails {entry : Action} {cause : Fault} {left after : Workpiece}
      (exits : Runs t.onExit ⟨now, .proper source⟩ before left) (has : t.onEntry = some entry)
      (fails : entry ⟨now, .proper t.target⟩ left = (.error cause, after)) :
      Passage now source t before (.error (.entryAction ⟨source, t.target, t.event⟩ cause)) after
  | through {left after : Workpiece} (exits : Runs t.onExit ⟨now, .proper source⟩ before left)
      (enters : Runs t.onEntry ⟨now, .proper t.target⟩ left after) :
      Passage now source t before (.ok ()) after

theorem Passage.isAction {now : Timestamp} {source : String} {t : Transition}
    {before after : Workpiece} {fault : Fault}
    (passage : Passage now source t before (.error fault) after) : fault.isAction = true := by
  cases passage <;> rfl

namespace Project

variable {now : Timestamp} {event : String} {p : Project} {t : Transition}

theorem run_actIfAny (now : Timestamp) (wrap : Fault → Fault) (action : Option Action) (p : Project) :
    (∃ piece, Runs action ⟨now, .proper p.state⟩ p.piece piece ∧
      actIfAny now wrap action p = (.ok (), p.withPiece piece)) ∨
    ∃ act cause piece, action = some act ∧
      act ⟨now, .proper p.state⟩ p.piece = (.error cause, piece) ∧
      actIfAny now wrap action p = (.error (wrap cause), p.withPiece piece) := by
  cases action with
  | none => exact .inl ⟨p.piece, rfl, rfl⟩
  | some action =>
      rw [actIfAny, Attempt.run_rethrow, act]
      rcases ran : action ⟨now, .proper p.state⟩ ⟨p.document, p.journal⟩ with ⟨cause | ⟨⟩, after⟩
      · exact .inr ⟨action, cause, after, rfl, ran, rfl⟩
      · exact .inl ⟨after, ran, rfl⟩

/-- What firing comes to once the guard has passed. -/
def arrived (p : Project) (t : Transition) :
    Except Fault Unit × Workpiece → Except Fault Transition × Project
  | (.error fault, piece) => (.error fault, p.withPiece piece)
  | (.ok _, piece) => (.ok t, { p.withPiece piece with machine := p.machine.moved t.target })

/-- Once the guard has passed, the actions say what comes of firing. -/
theorem fire_passage (declared : p.machine.transition event = .ok t)
    (passed : p.machine.passes p.document t = .ok true) (now : Timestamp) :
    ∃ result piece, Passage now p.state t p.piece result piece ∧
      fire now event p = p.arrived t (result, piece) := by
  rw [run_fire, declared]
  simp only [passed]
  rcases run_actIfAny now (.exitAction (p.machine.arrow t)) t.onExit p with
    ⟨left, exits, ran⟩ | ⟨exit, cause, after, has, fails, ran⟩
  · rw [ran]
    simp only
    rw [run_enter]
    rcases run_actIfAny now (.entryAction ⟨p.state, t.target, t.event⟩) t.onEntry
        { p.withPiece left with machine := p.machine.moved t.target } with
      ⟨after, enters, ran⟩ | ⟨entry, cause, after, has, fails, ran⟩
    · refine ⟨_, after, .through exits enters, ?_⟩
      simp only [withPiece] at ran ⊢
      rw [ran]
      rfl
    · refine ⟨_, after, .entryFails exits has fails, ?_⟩
      simp only [withPiece] at ran ⊢
      rw [ran]
      rfl
  · refine ⟨_, after, .exitFails has fails, ?_⟩
    rw [ran]
    rfl

end Project

/-- A disk fails as systems do, for a path that leads nowhere, or for too many folders at a time. -/
theorem Disk.apart : FileSystem.Apart Disk := by
  have refusal (fault : Fault) (is : fault.isRefusal = true) : fault.Apart := by
    cases fault <;> first | rfl | cases is
  have nowhere {path : String} {d : Disk} {fault : Fault} (failed : d.reach path = .error fault) :
      fault.Apart := by
    obtain ⟨⟨text, rfl⟩, _⟩ := reach_fails failed
    rfl
  refine ⟨fun path text d fault failed => ?_, fun path d fault failed => ?_,
    fun path d fault failed => ?_⟩
  · rcases write_fails path text d fault failed with is | there | ⟨rfl, _⟩
    · exact refusal fault is
    · exact nowhere there
    · rfl
  · exact (holds_fails fault failed).elim (refusal fault) nowhere
  · exact (remove_fails fault failed).elim (refusal fault) nowhere

section

variable (exits entries : Transition → Option Action)

/-- The same transition with other actions. -/
def Transition.acting (t : Transition) : Transition :=
  { t with onExit := exits t, onEntry := entries t }

def Machine.acting (m : Machine) : Machine :=
  { m with table := m.table.map fun entry => (entry.1, entry.2.acting exits entries) }

/-- The same project with other actions. -/
def Project.acting (p : Project) : Project := { p with machine := p.machine.acting exits entries }

theorem Machine.transition_acting (m : Machine) (event : String) :
    (m.acting exits entries).transition event =
      (m.transition event).map (·.acting exits entries) := by
  have events : (m.acting exits entries).transitions.map (·.event) = m.transitions.map (·.event) := by
    simp only [transitions, acting, List.filter_map, List.map_map]
    rfl
  rw [transition, transition, events, lookup, acting, Keyed.find?_map, lookup]
  cases Keyed.find? m.table (m.state, event) <;> rfl

/-- Where the guard does not pass, firing fails before any action runs. -/
theorem Project.fire_unacted {p : Project} {event : String}
    (never : ∀ t, p.machine.transition event = .ok t → p.machine.passes p.document t ≠ .ok true)
    (now : Timestamp) :
    ∃ fault, fire now event p = (.error fault, p) ∧
      fire now event (p.acting exits entries) = (.error fault, p.acting exits entries) := by
  rw [run_fire, run_fire, acting, Machine.transition_acting]
  rcases declared : p.machine.transition event with fault | t
  · exact ⟨fault, rfl, rfl⟩
  · have refused := never t declared
    have same : (p.machine.acting exits entries).passes p.document (t.acting exits entries) =
        p.machine.passes p.document t := rfl
    simp only [Except.map, same]
    rcases passed : p.machine.passes p.document t with fault | _ | _
    · exact ⟨fault, rfl, rfl⟩
    · exact ⟨_, rfl, rfl⟩
    · exact absurd passed refused

end

namespace Desk

variable {σ : Type}

/-- The same desk with other actions. -/
def acting (exits entries : Transition → Option Action) (desk : Desk σ) : Desk σ :=
  desk.withProject (desk.project.acting exits entries)

variable [Backend σ] {now : Timestamp} {order : Option String} {desk after : Desk σ} {fault : Fault}

/-- What a call comes to once the guard has passed. -/
def arrived (now : Timestamp) (t : Transition) (desk : Desk σ) :
    Except Fault Unit × Workpiece → Except Fault Move × Desk σ
  | (.error fault, piece) => (.error fault, desk.withProject (desk.project.withPiece piece))
  | (.ok _, piece) =>
    settle now desk.project.state t (desk.withProject
      { desk.project.withPiece piece with machine := desk.project.machine.moved t.target })

theorem proceed_passage {event : String} {t : Transition} (asked : desk.project.eventFor order = .ok event)
    (declared : desk.project.machine.transition event = .ok t)
    (passed : desk.project.machine.passes desk.project.document t = .ok true) (now : Timestamp) :
    ∃ result piece, Passage now desk.project.state t desk.project.piece result piece ∧
      proceed now order desk = desk.arrived now t (result, piece) := by
  obtain ⟨result, piece, passage, fired⟩ := Project.fire_passage declared passed now
  refine ⟨result, piece, passage, ?_⟩
  rw [run_proceed, asked]
  simp only [run_fire, fired]
  cases result <;> rfl

/-- Once the guard has passed, moving a project fails in an action only. -/
theorem proceed_acted (apart : Backend.Apart σ) {event : String} {t : Transition}
    (asked : desk.project.eventFor order = .ok event)
    (declared : desk.project.machine.transition event = .ok t)
    (passed : desk.project.machine.passes desk.project.document t = .ok true)
    (failed : proceed now order desk = (.error fault, after)) (moving : fault.isTransition = true) :
    ∃ piece, Passage now desk.project.state t desk.project.piece (.error fault) piece ∧
      after = desk.withProject (desk.project.withPiece piece) := by
  obtain ⟨result, piece, passage, proceeds⟩ := proceed_passage asked declared passed now
  rw [failed] at proceeds
  cases result with
  | error other =>
      cases proceeds
      exact ⟨piece, passage, rfl⟩
  | ok =>
      have spared := settle_apart apart now desk.project.state t _ fault (congrArg Prod.fst proceeds.symm)
      cases moving.symm.trans spared

/-- A call that is refused changes nothing, and comes to the same whatever actions there are. -/
theorem proceed_refused (apart : Backend.Apart σ) (failed : proceed now order desk = (.error fault, after))
    (moving : fault.isTransition = true)
    (early : fault.isAction = false ∨ desk.project.eventFor order = .error fault)
    (exits entries : Transition → Option Action) :
    after = desk ∧
      proceed now order (desk.acting exits entries) = (.error fault, desk.acting exits entries) := by
  have chosen : (desk.acting exits entries).project.eventFor order = desk.project.eventFor order := by
    cases order <;> rfl
  cases asked : desk.project.eventFor order with
  | error other =>
      rw [run_proceed, asked] at failed
      cases failed
      rw [run_proceed, chosen, asked]
      exact ⟨rfl, rfl⟩
  | ok event =>
      have passive := early.resolve_right fun other => by rw [asked] at other; cases other
      have never : ∀ t, desk.project.machine.transition event = .ok t →
          desk.project.machine.passes desk.project.document t ≠ .ok true := by
        intro t declared passed
        obtain ⟨_, passage, _⟩ := proceed_acted apart asked declared passed failed moving
        cases passage.isAction.symm.trans passive
      obtain ⟨other, fired, same⟩ := Project.fire_unacted exits entries never now
      rw [run_proceed, asked] at failed
      simp only [run_fire, fired] at failed
      cases failed
      refine ⟨rfl, ?_⟩
      rw [run_proceed, chosen, asked, acting, withProject]
      simp only [run_fire]
      rw [same]
      rfl

/-- What fails in an action left nothing behind but what the actions did to the document. -/
theorem proceed_blamed (apart : Backend.Apart σ) {event : String}
    (asked : desk.project.eventFor order = .ok event)
    (failed : proceed now order desk = (.error fault, after)) (action : fault.isAction = true) :
    ∃ t piece, desk.project.machine.transition event = .ok t ∧
      desk.project.machine.passes desk.project.document t = .ok true ∧
      Passage now desk.project.state t desk.project.piece (.error fault) piece ∧
      after = desk.withProject (desk.project.withPiece piece) := by
  by_cases goes : ∃ t, desk.project.machine.transition event = .ok t ∧
      desk.project.machine.passes desk.project.document t = .ok true
  · obtain ⟨t, declared, passed⟩ := goes
    obtain ⟨piece, passage, left⟩ := proceed_acted apart asked declared passed failed
      (Fault.inMoving_of_action action)
    exact ⟨t, piece, declared, passed, passage, left⟩
  · obtain ⟨other, passive, refused⟩ :=
      Project.fire_refused (fun t declared passed => goes ⟨t, declared, passed⟩) now
    rw [run_proceed, asked] at failed
    simp only [run_fire, refused] at failed
    cases failed
    cases passive.symm.trans action

/-- Over storage that never fails to move a project, a call that is refused by the choice of an event, by
the table of transitions or by a guard changes nothing, and the actions make no difference to it. One that
fails in an action leaves the machine and what is stored as they were, and the document as the actions left
it. The exit action sees the source of the transition and the entry action its target. -/
theorem proceed_undone (apart : Backend.Apart σ) (now : Timestamp) (order : Option String)
    (desk : Desk σ) :
    (∀ fault after, proceed now order desk = (.error fault, after) → fault.isTransition = true →
      (fault.isAction = false ∨ desk.project.eventFor order = .error fault) →
      after = desk ∧ ∀ exits entries,
        proceed now order (desk.acting exits entries) = (.error fault, desk.acting exits entries)) ∧
    (∀ event fault after, desk.project.eventFor order = .ok event →
      proceed now order desk = (.error fault, after) → fault.isAction = true →
      ∃ t piece, desk.project.machine.transition event = .ok t ∧
        desk.project.machine.passes desk.project.document t = .ok true ∧
        Passage now desk.project.state t desk.project.piece (.error fault) piece ∧
        after = desk.withProject (desk.project.withPiece piece)) ∧
    ∀ event t, desk.project.eventFor order = .ok event →
      desk.project.machine.transition event = .ok t →
      desk.project.machine.passes desk.project.document t = .ok true →
      ∃ result piece, Passage now desk.project.state t desk.project.piece result piece ∧
        proceed now order desk = desk.arrived now t (result, piece) := by
  refine ⟨?_, ?_, ?_⟩
  · intro fault after failed moving early
    have refused := proceed_refused apart failed moving early
    exact ⟨(refused (fun _ => none) fun _ => none).1, fun exits entries => (refused exits entries).2⟩
  · intro event fault after asked failed action
    exact proceed_blamed apart asked failed action
  · intro event t asked declared passed
    exact proceed_passage asked declared passed now

end Desk

/-- Leaves the state that it sees in the journal. -/
def Action.passing : Action := fun moment =>
  modify fun piece => { piece with journal := piece.journal ++ [moment.current.display] }

/-- A transition whose entry action finds no room. -/
def Transition.cramped : Transition :=
  .make "Start" "Done" "finish" [.onExit .passing, .onEntry fun moment => do
    Action.passing moment
    throw (.runtime "no room")]

/-- A project that cannot arrive. -/
def Desk.cramped : Desk MemoryStore :=
  ⟨.start { Blueprint.sample .unusable with transitions := [.cramped] } (.sample []) "Start",
    ⟨⟨none, 0⟩, []⟩⟩

theorem Desk.proceed_cramped :
    Backend.Apart MemoryStore ∧
      Desk.proceed newYear (some "finish") .cramped =
        (.error (.entryAction ⟨"Start", "Done", "finish"⟩ (.runtime "no room")),
          Desk.cramped.withProject { Desk.cramped.project with journal := ["Start", "Done"] }) := by
  have ⟨_, _, passes⟩ := Desk.proceed_undone MemoryStore.apart newYear (some "finish") .cramped
  obtain ⟨result, piece, passage, proceeds⟩ := passes "finish" .cramped rfl rfl rfl
  refine ⟨MemoryStore.apart, proceeds.trans ?_⟩
  cases passage with
  | exitFails has fails =>
      cases has
      cases fails
  | entryFails exits has fails =>
      cases exits
      cases has
      cases fails
      rfl
  | through exits enters =>
      cases exits
      cases enters

end Lifecycle
