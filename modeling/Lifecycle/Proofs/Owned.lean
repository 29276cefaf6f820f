import Lifecycle.Proofs.Loading
import Lifecycle.Proofs.Sorting
import Lifecycle.Proofs.Unsaved
/-!
Which failures this library reports of its own accord. Moving a project fails in no other way until a
transition has fired; from then on it does over a document that actions spoiled, or over storage that
fails in other ways. -/

namespace Lifecycle

open Attempt (Fails)

theorem FailsAs.mapError {ε ζ α : Type} {kind : ε → Prop} {other : ζ → Prop} {e : Except ε α}
    (fails : FailsAs kind e) {f : ε → ζ} (each : ∀ fault, kind fault → other (f fault)) :
    FailsAs other (e.mapError f) := by
  cases e with
  | ok a => exact .ok a
  | error fault => exact .error (each fault (fails fault rfl))

theorem FailsAs.mapM {ε α β : Type} {kind : ε → Prop} {f : α → Except ε β}
    (each : ∀ a, FailsAs kind (f a)) (list : List α) : FailsAs kind (list.mapM f) := by
  induction list with
  | nil => exact .ok _
  | cons a rest ih =>
      rw [List.mapM_cons]
      exact (each a).bind fun _ => ih.bind fun _ => .ok _

namespace Attempt

variable {s α β : Type} {kind : Fault → Prop} {state : s}

/-- How a computation fails from a state on: as what it begins with, or as what comes after that. -/
theorem failsAs_bind {work : Attempt s α} (first : FailsAs kind (work state).1)
    {next : α → Attempt s β}
    (later : ∀ a after, work state = (.ok a, after) → FailsAs kind (next a after).1) :
    FailsAs kind ((work >>= next) state).1 := by
  rw [run_bind]
  rcases shape : work state with ⟨fault | a, after⟩
  · rw [shape] at first
    intro other failed
    cases failed
    exact first fault rfl
  · exact later a after shape

theorem failsAs_ofExcept_bind {e : Except Fault α} (first : FailsAs kind e)
    {next : α → Attempt s β} (later : ∀ a, e = .ok a → FailsAs kind (next a state).1) :
    FailsAs kind ((ofExcept e >>= next) state).1 :=
  failsAs_bind first fun a _ same => by
    cases same
    exact later a rfl

end Attempt

namespace Fault

/-- Whether a fault is one of this library's own. -/
abbrev Owned (fault : Fault) : Prop := fault.isOwn = true

/-- Whether a fault is a failure to move a project. -/
abbrev InMoving (fault : Fault) : Prop := fault.isTransition = true

theorem inMoving_of_action {fault : Fault} (action : fault.isAction = true) : fault.InMoving := by
  cases fault <;> first | rfl | cases action

theorem owned_of_inMoving {fault : Fault} (transition : fault.InMoving) : fault.Owned := by
  cases fault <;> first | rfl | cases transition

theorem owned_of_expected {fault : Fault} (expected : fault.isExpected = true) : fault.Owned := by
  cases fault <;> first | rfl | cases expected

end Fault

open Fault (InMoving owned_of_inMoving)

namespace Machine

theorem transition_inMoving (m : Machine) (event : String) : FailsAs InMoving (m.transition event) := by
  intro fault failed
  rw [transition] at failed
  split at failed <;> cases failed
  rfl

theorem passes_inMoving (m : Machine) (d : Document) (t : Transition) :
    FailsAs InMoving (m.passes d t) := by
  intro fault failed
  rw [passes] at failed
  split at failed
  · cases failed
  · split at failed <;> cases failed
    rfl

theorem blockOf_inMoving (m : Machine) (d : Document) (t : Transition) :
    FailsAs InMoving (m.blockOf d t) := (m.passes_inMoving d t).map _

end Machine

theorem Blueprint.determineEvent_inMoving (b : Blueprint) (sight : Sight) (state : String) :
    FailsAs InMoving (b.determineEvent sight state) := by
  intro fault failed
  rw [determineEvent] at failed
  split at failed
  · cases failed
    rfl
  · split at failed
    · next other _ =>
        by_cases transition : other.isTransition = true
        · rw [if_pos transition] at failed
          cases failed
          exact transition
        · rw [if_neg transition] at failed
          cases failed
          rfl
    · split at failed <;> cases failed
      rfl

namespace Project

theorem eventFor_inMoving (p : Project) (event : Option String) : FailsAs InMoving (p.eventFor event) := by
  cases event with
  | some event => exact .ok event
  | none => exact Blueprint.determineEvent_inMoving _ _ _

theorem discover_inMoving (p : Project) : FailsAs InMoving p.discover :=
  FailsAs.mapM (fun t => (p.machine.blockOf_inMoving p.document t).bind fun _ => .ok _) _

theorem dryRun_inMoving (p : Project) (event : String) : FailsAs InMoving (p.dryRun event) :=
  (p.machine.transition_inMoving event).bind fun t =>
    (p.machine.blockOf_inMoving p.document t).bind fun _ => .ok _

/-- Firing itself fails in ways of its own only, whatever guards and actions fail with. -/
theorem fire_inMoving (now : Timestamp) (event : String) : Fails InMoving (fire now event) := by
  intro p fault failed
  by_cases fires : ∃ t, p.machine.transition event = .ok t ∧ p.machine.passes p.document t = .ok true
  · obtain ⟨t, declared, passed⟩ := fires
    exact Fault.inMoving_of_action (fire_fails declared passed failed)
  · rw [run_fire] at failed
    cases declared : p.machine.transition event with
    | error other =>
        rw [declared] at failed
        cases failed
        exact p.machine.transition_inMoving event _ declared
    | ok t =>
        simp only [declared] at failed
        rcases passed : p.machine.passes p.document t with other | _ | _
        · rw [passed] at failed
          cases failed
          exact p.machine.passes_inMoving p.document t _ passed
        · rw [passed] at failed
          cases failed
          rfl
        · exact absurd ⟨t, declared, passed⟩ fires

end Project

namespace Desk

variable {σ : Type} [Backend σ] {condition : Condition} {now : Timestamp} {fault : Fault}

/-- What fails otherwise than in moving the project does so after a transition has fired. -/
theorem proceed_settles {event : Option String} {desk : Desk σ}
    (failed : (proceed now event desk).1 = .error fault) (later : ¬fault.InMoving) :
    ∃ t moved, desk.project.Fires now event t moved ∧
      (settle now desk.project.state t (desk.withProject moved)).1 = .error fault := by
  rw [run_proceed] at failed
  cases asked : desk.project.eventFor event with
  | error other =>
      rw [asked] at failed
      cases failed
      exact absurd (desk.project.eventFor_inMoving event _ asked) later
  | ok name =>
      simp only [asked, run_fire] at failed
      rcases fired : desk.project.fire now name with ⟨other | t, moved⟩
      · rw [fired] at failed
        cases failed
        exact absurd (Project.fire_inMoving now name _ _ (congrArg Prod.fst fired)) later
      · rw [fired] at failed
        exact ⟨t, moved, ⟨name, asked, fired⟩, failed⟩

/-- Of all orders only those to move fail otherwise than this library does, as the move does. -/
theorem run_disowned {o : Order} {desk : Desk σ} :
    (run now o desk).1 = .error fault ∧ ¬fault.Owned ↔
      o.list = false ∧ o.dryRun = false ∧ (proceed now o.event desk).1 = .error fault ∧
        ¬fault.Owned := by
  have looks {result : Except Fault Report} (owned : FailsAs Fault.Owned result) :
      ¬(result = .error fault ∧ ¬fault.Owned) := fun ⟨failed, disowned⟩ => disowned (owned fault failed)
  have own (fault : Fault) (transition : fault.InMoving) : fault.Owned := owned_of_inMoving transition
  obtain ⟨event, list, dryRun⟩ := o
  cases list with
  | true =>
      refine iff_of_false (looks ?_) (by simp)
      cases dryRun with
      | true => exact .error rfl
      | false =>
          cases event with
          | some event => exact .error rfl
          | none =>
              rw [run, Attempt.run_bind_ok (Attempt.run_get _)]
              exact Attempt.failsAs_ofExcept_bind (desk.project.discover_inMoving.mono own) fun _ _ => .ok _
  | false =>
      cases dryRun with
      | true =>
          refine iff_of_false (looks ?_) (by simp)
          cases event with
          | none => exact .error rfl
          | some event =>
              rw [run, Attempt.run_bind_ok (Attempt.run_get _)]
              exact Attempt.failsAs_ofExcept_bind ((desk.project.dryRun_inMoving event).mono own)
                fun _ _ => .ok _
      | false =>
          rw [run_moves]
          cases (proceed now event desk).1 <;> simp [Except.map]

section

variable {desk : Desk σ} (typed : desk.project.document.Typed condition) (proper : now.Proper)
  {kind : Fault → Prop} (own : ∀ fault : Fault, fault.Owned → kind fault)

include own

omit [Backend σ] in
/-- The check of a typed document fails as this library does. -/
theorem check_failsAs {b : Blueprint} {d : Document} (typed : d.Typed condition) (checkers : Checkers) :
    FailsAs kind (b.check d checkers).1 := by
  intro fault failed
  by_cases checkable : b.Checkable d
  · obtain ⟨found, rfl⟩ := Blueprint.check_of_checkable typed checkable checkers failed
    exact own _ rfl
  · rw [Blueprint.check_unusable typed checkable] at failed
    cases failed
    exact own _ rfl

include typed proper

/-- A typed document is saved unless this library itself or the storage refuses it. -/
theorem save_failsAs (stored : ∀ d : Document, FailsAs kind (Backend.save d desk.archive.store).1) :
    FailsAs kind (save now desk).1 := by
  obtain ⟨d, stamped, _, _, _, saves⟩ := run_save_typed typed proper
  rw [saves]
  intro fault failed
  rcases deposit_eq_error.mp failed with refused | ⟨_, unstored⟩
  · exact check_failsAs own stamped _ fault refused
  · exact stored d fault unstored

theorem keep_failsAs (stored : ∀ d : Document, FailsAs kind (Backend.save d desk.archive.store).1)
    (cleared : FailsAs kind (clear desk).1) : FailsAs kind (keep now desk).1 := by
  rw [run_keep]
  split
  · exact cleared
  · exact save_failsAs typed proper own stored

theorem settle_failsAs (source : String) (t : Transition)
    (kept : ∀ document : Document, document.Typed condition →
      FailsAs kind (keep now (desk.withDocument document)).1) :
    FailsAs kind (settle now source t desk).1 := by
  obtain ⟨document, edited, editedTyped, _⟩ :=
    Edit.afterTransition_keeps typed proper desk.project.blueprint source t
  intro fault failed
  obtain ⟨cause, refused, rfl⟩ := (settle_eq_error edited).mp failed
  rw [Fault.afterMove]
  split
  · exact own _ rfl
  · exact kept document editedTyped cause refused

end

end Desk

end Lifecycle
