import Lifecycle.Proofs.Accepted
import Lifecycle.Proofs.Codec
import Lifecycle.Proofs.Saving
/-!
What firing comes to, step by step. A transition either fires and the machine stands in its target, or
something fails on the way and the machine stands where it stood. -/

namespace Lifecycle

/-- Failures of an action that a transition runs. -/
def Fault.isAction : Fault → Bool
  | .exitAction _ _ | .entryAction _ _ => true
  | _ => false

namespace Project

theorem run_edit (change : Edit Unit) (p : Project) :
    edit change p = ((change p.document).1, { p with document := (change p.document).2 }) := rfl

theorem actIfAny_machine (now : Timestamp) (wrap : Fault → Fault) (action : Option Action)
    (p : Project) : (actIfAny now wrap action p).2.machine = p.machine := by
  cases action with
  | none => rfl
  | some action =>
      rw [actIfAny, Attempt.run_rethrow]
      rfl

theorem run_enter (now : Timestamp) (source : String) (t : Transition) (p : Project) :
    enter now source t p =
      match actIfAny now (.entryAction ⟨source, t.target, t.event⟩) t.onEntry
          { p with machine := p.machine.moved t.target } with
      | (.ok _, after) => (.ok (), after)
      | (.error fault, after) =>
        (.error fault, { after with machine := after.machine.moved source }) := by
  rw [enter, moveTo, Attempt.run_bind_ok (Attempt.run_modify _ _), Attempt.run_tryCatch]
  rcases actIfAny now (.entryAction ⟨source, t.target, t.event⟩) t.onEntry
    { p with machine := p.machine.moved t.target } with ⟨fault | ⟨⟩, after⟩
  · rfl
  · rfl

theorem run_fire (now : Timestamp) (event : String) (p : Project) :
    fire now event p =
      match p.machine.transition event with
      | .error fault => (.error fault, p)
      | .ok t =>
        match p.machine.passes p.document t with
        | .error fault => (.error fault, p)
        | .ok false => (.error (.blocked (p.machine.arrow t) t.blockReason), p)
        | .ok true =>
          match actIfAny now (.exitAction (p.machine.arrow t)) t.onExit p with
          | (.error fault, after) => (.error fault, after)
          | (.ok _, left) =>
            match enter now p.state t left with
            | (.error fault, after) => (.error fault, after)
            | (.ok _, after) => (.ok t, after) := by
  rw [fire, Attempt.run_bind_ok (Attempt.run_get _), Attempt.ofExcept_bind]
  cases p.machine.transition event with
  | error fault => rfl
  | ok t =>
      simp only [Attempt.ofExcept_bind]
      cases p.machine.passes p.document t with
      | error fault => rfl
      | ok passed =>
          cases passed with
          | false => rfl
          | true =>
              simp only [if_true, Attempt.run_bind]
              rcases actIfAny now (.exitAction (p.machine.arrow t)) t.onExit p with
                ⟨fault | ⟨⟩, left⟩
              · rfl
              · simp only
                rcases enter now p.state t left with ⟨fault | ⟨⟩, after⟩
                · rfl
                · rfl

theorem enter_machine (now : Timestamp) (source : String) (t : Transition) (p : Project) :
    (enter now source t p).2.machine =
      p.machine.moved (if (enter now source t p).1.isOk then t.target else source) := by
  have stays := actIfAny_machine now (.entryAction ⟨source, t.target, t.event⟩) t.onEntry
    { p with machine := p.machine.moved t.target }
  rw [run_enter]
  rcases entered : actIfAny now (.entryAction ⟨source, t.target, t.event⟩) t.onEntry
    { p with machine := p.machine.moved t.target } with ⟨fault | ⟨⟩, after⟩
  · rw [entered] at stays
    -- Going back sets the state alone, which is all that the move had changed.
    have back := congrArg (fun m => m.moved source) stays
    exact back
  · rw [entered] at stays
    exact stays

theorem actIfAny_fails {now : Timestamp} {wrap : Fault → Fault} {action : Option Action} {p : Project}
    {fault : Fault} (failed : (actIfAny now wrap action p).1 = .error fault) :
    ∃ cause, fault = wrap cause := by
  cases action with
  | none => cases failed
  | some action =>
      rw [actIfAny, Attempt.run_rethrow] at failed
      cases done : (act now action p).1 with
      | ok =>
          rw [done] at failed
          cases failed
      | error cause =>
          rw [done] at failed
          exact ⟨cause, (Except.error.inj failed).symm⟩

/-- Once the guard has passed only actions fail. -/
theorem fire_fails {now : Timestamp} {event : String} {p : Project} {t : Transition} {fault : Fault}
    (declared : p.machine.transition event = .ok t)
    (passed : p.machine.passes p.document t = .ok true)
    (failed : (fire now event p).1 = .error fault) : fault.isAction = true := by
  rw [run_fire, declared] at failed
  simp only [passed] at failed
  rcases exited : actIfAny now (.exitAction (p.machine.arrow t)) t.onExit p with ⟨other | ⟨⟩, left⟩
  · rw [exited] at failed
    obtain rfl := Except.error.inj failed
    obtain ⟨cause, rfl⟩ := actIfAny_fails (congrArg Prod.fst exited)
    rfl
  · rw [exited] at failed
    simp only at failed
    rw [run_enter] at failed
    rcases entered : actIfAny now (.entryAction ⟨p.state, t.target, t.event⟩) t.onEntry
      { left with machine := left.machine.moved t.target } with ⟨other | ⟨⟩, after⟩
    · rw [entered] at failed
      obtain rfl := Except.error.inj failed
      obtain ⟨cause, rfl⟩ := actIfAny_fails (congrArg Prod.fst entered)
      rfl
    · rw [entered] at failed
      cases failed

/-- Where no guard passes nothing happens, and that is not the fault of an action. -/
theorem fire_refused {event : String} {p : Project}
    (never : ∀ t, p.machine.transition event = .ok t → p.machine.passes p.document t ≠ .ok true)
    (now : Timestamp) : ∃ fault, fault.isAction = false ∧ fire now event p = (.error fault, p) := by
  rw [run_fire]
  rcases declared : p.machine.transition event with fault | t
  · refine ⟨fault, ?_, rfl⟩
    rw [Machine.transition] at declared
    split at declared <;> cases declared
    rfl
  · have refused := never t declared
    simp only
    rcases passed : p.machine.passes p.document t with fault | _ | _
    · refine ⟨fault, ?_, rfl⟩
      rw [Machine.passes] at passed
      split at passed
      · cases passed
      · split at passed <;> cases passed
        rfl
    · exact ⟨_, rfl, rfl⟩
    · exact absurd passed refused

/-- Without actions the machine moves and that is all. -/
theorem run_fire_plain {now : Timestamp} {event : String} {p : Project} {t : Transition}
    (declared : p.machine.transition event = .ok t)
    (passed : p.machine.passes p.document t = .ok true) (noExit : t.onExit = none)
    (noEntry : t.onEntry = none) :
    fire now event p = (.ok t, { p with machine := p.machine.moved t.target }) := by
  rw [run_fire, declared]
  simp only [passed, noExit, run_enter, noEntry]
  rfl

/-- A transition that only edits the document on entry fires if the edit does not fail. -/
theorem run_fire_edit {α : Type} {now : Timestamp} {event : String} {p : Project} {t : Transition}
    (declared : p.machine.transition event = .ok t)
    (passed : p.machine.passes p.document t = .ok true) (noExit : t.onExit = none)
    {change : Timestamp → Edit α} (entry : t.onEntry = some (.ofEdit change)) :
    fire now event p =
      match change now p.document with
      | (.ok _, document) =>
        (.ok t, { p with document, machine := p.machine.moved t.target })
      | (.error fault, document) =>
        (.error (.entryAction (p.machine.arrow t) fault), { p with document }) := by
  rw [run_fire, declared]
  simp only [passed, noExit, run_enter, entry, actIfAny, Attempt.run_pure, Attempt.run_rethrow, act,
    Action.ofEdit, Attempt.run_focus, Attempt.run_bind]
  rcases change now p.document with ⟨fault | a, document⟩
  · rfl
  · rfl

/-- What a call does to the machine: it moves along the transition that fired, or it stays. -/
inductive Outcome (p : Project) (event : String) : Except Fault Transition × Project → Prop where
  | fired (t : Transition) (after : Project) (declared : p.machine.transition event = .ok t)
      (passed : p.machine.passes p.document t = .ok true)
      (moved : after.machine = p.machine.moved t.target) : Outcome p event (.ok t, after)
  | stayed (fault : Fault) (after : Project) (same : after.machine = p.machine) :
      Outcome p event (.error fault, after)

theorem fire_outcome (now : Timestamp) (event : String) (p : Project) :
    Outcome p event (fire now event p) := by
  rw [run_fire]
  cases found : p.machine.transition event with
  | error fault => exact .stayed fault p rfl
  | ok t =>
      simp only
      rcases guarded : p.machine.passes p.document t with fault | _ | _
      · exact .stayed fault p rfl
      · exact .stayed _ p rfl
      · have stays := actIfAny_machine now (.exitAction (p.machine.arrow t)) t.onExit p
        simp only
        rcases exited : actIfAny now (.exitAction (p.machine.arrow t)) t.onExit p with
          ⟨fault | ⟨⟩, left⟩
        · rw [exited] at stays
          exact .stayed fault left stays
        · rw [exited] at stays
          have there := enter_machine now p.state t left
          rw [show left.machine = p.machine from stays] at there
          simp only
          rcases entered : enter now p.state t left with ⟨fault | ⟨⟩, after⟩
          · rw [entered] at there
            exact .stayed fault after there
          · rw [entered] at there
            exact .fired t after found guarded there

/-- A transition fires if its guard passes and its actions do not fail; then the machine has moved. -/
theorem fire_ok {now : Timestamp} {event : String} {p after : Project} {t : Transition}
    (fired : fire now event p = (.ok t, after)) :
    p.machine.transition event = .ok t ∧ p.machine.passes p.document t = .ok true ∧
      after.machine = p.machine.moved t.target := by
  have outcome := fire_outcome now event p
  rw [fired] at outcome
  cases outcome with
  | fired _ _ declared passed moved => exact ⟨declared, passed, moved⟩

/-- Whatever keeps a transition from firing, the machine stands where it stood. -/
theorem fire_error {now : Timestamp} {event : String} {p after : Project} {fault : Fault}
    (failed : fire now event p = (.error fault, after)) : after.machine = p.machine := by
  have outcome := fire_outcome now event p
  rw [failed] at outcome
  cases outcome with
  | stayed _ _ same => exact same

end Project

theorem Document.sync_phases {d synced : Document} {now : Timestamp} {state : String}
    (done : d.sync now state = .ok synced) : synced.phases = d.phases := by
  rw [sync] at done
  cases noted : d.current with
  | error fault =>
      rw [noted] at done
      cases done
  | ok current =>
      rw [noted] at done
      simp only [bind, Except.bind] at done
      split at done <;> cases done <;> rfl

/-- Failures to store, and what storing refuses to store. -/
def Fault.isExpected (fault : Fault) : Bool := fault.isStorage || fault.isValidation

/-- How a failure to store a project that has moved is reported. -/
def Fault.afterMove (m : Move) (fault : Fault) : Fault :=
  if fault.isExpected then .unsaved m fault else fault

/-- What a transition reports that fired. -/
def Transition.move (t : Transition) (source : String) : Move :=
  ⟨source, t.target, t.event, t.description, true, true, none⟩

namespace Desk

variable {σ : Type}

def withProject (desk : Desk σ) (project : Project) : Desk σ := { desk with project }

def withStore (desk : Desk σ) (store : σ) : Desk σ :=
  { desk with archive := { desk.archive with store } }

variable [Backend σ]

/-- What remains to be done after the end of the lifecycle. -/
def clear : Attempt (Desk σ) Unit := do
  if ← onStore Backend.holds then onStore Backend.delete

theorem run_clear (desk : Desk σ) :
    clear desk =
      match Backend.holds desk.archive.store with
      | (.error fault, store) => (.error fault, desk.withStore store)
      | (.ok false, store) => (.ok (), desk.withStore store)
      | (.ok true, store) => ((Backend.delete store).1, desk.withStore (Backend.delete store).2) := by
  rw [clear, Attempt.run_bind, onStore, onArchive, Attempt.run_focus, Archive.onStore,
    Attempt.run_focus]
  rcases Backend.holds desk.archive.store with ⟨fault | _ | _, store⟩
  · rfl
  · rfl
  · rfl

theorem clear_project (desk : Desk σ) : (clear desk).2.project = desk.project := by
  rw [run_clear]
  rcases Backend.holds desk.archive.store with ⟨fault | _ | _, store⟩
  · rfl
  · rfl
  · rfl

theorem deposit_project (d : Document) (desk : Desk σ) : (deposit d desk).2.project = desk.project := by
  rw [deposit]
  rcases desk.project.blueprint.check d desk.archive.checkers with ⟨fault | ⟨⟩, checkers⟩
  · rfl
  · rfl

theorem save_machine (now : Timestamp) (desk : Desk σ) :
    (save now desk).2.project.machine = desk.project.machine := by
  rw [run_save]
  cases desk.project.document.sync now desk.project.state with
  | error fault => rfl
  | ok d =>
      simp only [deposit_project]
      rfl

theorem run_keep (now : Timestamp) (desk : Desk σ) :
    keep now desk = if desk.project.state = noProject then clear desk else save now desk := by
  rw [keep, Attempt.run_bind_ok (Attempt.run_get _)]
  split
  · rfl
  · rfl

theorem keep_machine (now : Timestamp) (desk : Desk σ) :
    (keep now desk).2.project.machine = desk.project.machine := by
  rw [run_keep]
  split
  · rw [clear_project]
  · exact save_machine now desk

theorem save_phases (now : Timestamp) (desk : Desk σ) :
    (save now desk).2.project.document.phases = desk.project.document.phases := by
  rw [run_save]
  cases synced : desk.project.document.sync now desk.project.state with
  | error fault => rfl
  | ok d =>
      have same := Document.sync_phases synced
      simp only [deposit_project]
      exact same

/-- Keeping a project does not touch its phases. -/
theorem keep_phases (now : Timestamp) (desk : Desk σ) :
    (keep now desk).2.project.document.phases = desk.project.document.phases := by
  rw [run_keep]
  split
  · rw [clear_project]
  · exact save_phases now desk

/-- What remains to be done after a move: phases are brought up to date and the project is kept. -/
def settle (now : Timestamp) (source : String) (t : Transition) (desk : Desk σ) :
    Except Fault Move × Desk σ :=
  let p := desk.project
  match Edit.afterTransition now p.blueprint source t p.document with
  | (.error fault, document) => (.error fault, desk.withDocument document)
  | (.ok _, document) =>
    match keep now (desk.withDocument document) with
    | (.error fault, after) => (.error (fault.afterMove (t.move source)), after)
    | (.ok _, after) => (.ok (t.move source), after)

section

variable {now : Timestamp} {source : String} {t : Transition} {desk : Desk σ} {edited : Document}
  (updated : Edit.afterTransition now desk.project.blueprint source t desk.project.document =
    (.ok (), edited))

include updated

/-- Once the phases have been seen to, a move comes to what storing it does. -/
theorem run_settle :
    settle now source t desk =
      (((keep now (desk.withDocument edited)).1.mapError fun fault =>
        fault.afterMove (t.move source)).map fun _ => t.move source,
        (keep now (desk.withDocument edited)).2) := by
  rw [settle, updated]
  simp only
  rcases keep now (desk.withDocument edited) with ⟨fault | ⟨⟩, after⟩
  · rfl
  · rfl

theorem settle_eq_error {cause : Fault} :
    (settle now source t desk).1 = .error cause ↔
      ∃ fault, (keep now (desk.withDocument edited)).1 = .error fault ∧
        fault.afterMove (t.move source) = cause := by
  rw [run_settle updated]
  cases (keep now (desk.withDocument edited)).1 <;> simp [Except.mapError, Except.map]

end

theorem settle_machine (now : Timestamp) (source : String) (t : Transition) (desk : Desk σ) :
    (settle now source t desk).2.project.machine = desk.project.machine := by
  rcases updated : Edit.afterTransition now desk.project.blueprint source t desk.project.document with
    ⟨fault | ⟨⟩, document⟩
  · rw [settle, updated]
    rfl
  · rw [run_settle updated]
    exact keep_machine now (desk.withDocument document)

theorem run_fire (now : Timestamp) (event : String) (desk : Desk σ) :
    fire now event desk =
      match desk.project.fire now event with
      | (.error fault, project) => (.error fault, desk.withProject project)
      | (.ok t, project) => settle now desk.project.state t (desk.withProject project) := by
  rw [fire, Attempt.run_bind_ok (Attempt.run_get _), Attempt.run_bind, onProject, Attempt.run_focus]
  rcases desk.project.fire now event with ⟨fault | t, project⟩
  · rfl
  · simp only
    rw [Attempt.run_bind_ok (Attempt.run_get _), Attempt.run_bind, onProject, Attempt.run_focus,
      Project.run_edit, settle]
    simp only [withProject, Project.blueprint]
    rcases Edit.afterTransition now project.machine.blueprint desk.project.state t project.document with
      ⟨fault | ⟨⟩, document⟩
    · rfl
    · simp only
      rw [Attempt.run_bind, persist, Attempt.run_rethrow]
      simp only [withDocument]
      rcases keep now _ with ⟨fault | ⟨⟩, after⟩
      · rfl
      · rfl

end Desk

/-- A type with one phase, whose metadata has a schema, and one transition. -/
def Draft.sample (schema : Schema) : Draft :=
  (((Draft.empty "standard").phase "plan" [.schema schema]).startAt "Start").transition
    "Start" "Done" "finish" []

def Blueprint.sample (schema : Schema) : Blueprint := (Draft.sample schema).blueprint "Start"

theorem Draft.build_sample (schema : Schema) : (sample schema).build = .ok (.sample schema) := by
  have reached : reachable [.plain "Start" "Done" "finish"] "Start" = ["Start", "Done"] := by
    decide +kernel
  have only : (sample schema).transitions = [.plain "Start" "Done" "finish"] := rfl
  apply build_eq "Start" rfl (by decide) rfl
  rw [only, reached]
  rfl

/-- A project of that type, with the metadata given and nothing stored. -/
def Desk.sample (schema : Schema) (m : Metadata) : Desk (FileStore MemoryFiles) :=
  ⟨.start (.sample schema) (.sample m) "Start", .blank, []⟩

end Lifecycle
