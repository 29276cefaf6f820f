import Lifecycle.Proofs.Contract
import Lifecycle.Proofs.Findings
import Lifecycle.Proofs.Firing
import Lifecycle.Proofs.Phases
/-!
How a move that was not stored is reported. Everything that fails after the machine has moved is told
together with the move, but for a schema that cannot be checked against. -/

namespace Lifecycle

open Attempt (Fails)

variable {condition : Condition}

/-- Whether a fault is none of moving a project. -/
abbrev Fault.Apart (fault : Fault) : Prop := fault.isTransition = false

theorem Fault.apart_of_expected {fault : Fault} (expected : fault.isExpected = true) : fault.Apart := by
  cases fault <;> first | rfl | cases expected

namespace Edit

/-- Whether a failure is of a kind that neither storing nor moving a project is expected to have. -/
abbrev Unexpected (fault : Fault) : Prop := fault.isExpected = false ∧ fault.Apart

theorem phase_fails (name : String) : Fails Unexpected (phase name) := by
  intro d fault failed
  rw [phase, Document.phase, Document.phase?] at failed
  cases given : d.phases with
  | stray v =>
      rw [given] at failed
      cases failed
      exact ⟨rfl, rfl⟩
  | proper entries =>
      rw [given] at failed
      simp only [Slot.having, bind, Except.bind] at failed
      cases found : Keyed.find? entries name with
      | none =>
          rw [found] at failed
          cases failed
          exact ⟨rfl, rfl⟩
      | some s =>
          rw [found] at failed
          rcases s with p | v
          · cases failed
          · cases v <;> cases failed <;> exact ⟨rfl, rfl⟩

theorem changePhase_fails (name : String) (change : Phase → Phase) :
    Fails Unexpected (changePhase name fun p => .ok (change p)) :=
  (phase_fails name).bind fun _ =>
    (Attempt.fails_ofExcept nofun).bind fun _ => Attempt.fails_modify _

theorem lists_fails (name : String) {table : Table Phase} {fault : Fault}
    (failed : table.lists name = .error fault) : Unexpected fault := by
  rcases table with entries | v
  · cases failed
  · rw [Table.lists] at failed
    cases v <;> cases failed <;> exact ⟨rfl, rfl⟩

theorem whereThere_fails {edit : String → Edit Unit} (each : ∀ name, Fails Unexpected (edit name))
    (names : List String) : Fails Unexpected (whereThere edit names) := by
  refine Fails.forM (fun name => ?_) names
  refine Attempt.fails_get.bind fun d => ?_
  exact (Attempt.fails_ofExcept fun _ => lists_fails name).bind fun _ =>
    Attempt.fails_ite (each name) (Attempt.fails_pure _)

theorem afterTransition_fails (now : Timestamp) (b : Blueprint) (source : String) (t : Transition) :
    Fails Unexpected (afterTransition now b source t) := by
  rw [afterTransition]
  split
  · refine Fails.bind (whereThere_fails (fun name => ?_) _) fun _ =>
      whereThere_fails (fun name => changePhase_fails name _) _
    rw [finishPhase]
    split
    · exact changePhase_fails name _
    · exact changePhase_fails name _
  · exact Attempt.fails_pure _

end Edit

/-- Storage that fails in no way but those that are expected of it. -/
structure Backend.Steady (σ : Type) [Backend σ] : Prop where
  save : ∀ d : Document, Fails (·.isExpected = true) (Backend.save d : Attempt σ Unit)
  holds : Fails (·.isExpected = true) (Backend.holds : Attempt σ Bool)
  delete : Fails (·.isExpected = true) (Backend.delete : Attempt σ Unit)

theorem Unsteady.fails_guarded {σ α : Type} {kind : Fault → Prop} {work : Attempt σ α}
    (inner : Fails kind work) {failure : Fault} (scheduled : kind failure) (turn : Operation) :
    Fails kind (Unsteady.guarded turn failure work) := by
  intro u fault failed
  rw [run_guarded] at failed
  split at failed
  · obtain rfl := Except.error.inj failed
    exact scheduled
  · exact inner u.inner fault failed

/-- Steady storage whose calls fail by a schedule is steady. -/
theorem Unsteady.steady {σ : Type} [Backend σ] (inner : Backend.Steady σ) :
    Backend.Steady (Unsteady σ) where
  save d := fails_guarded (inner.save d) rfl .store
  holds := fails_guarded inner.holds rfl .check
  delete := fails_guarded inner.delete rfl .discard

/-- Whether a fault is that of a system, or of a file that is not there. -/
def Fault.isRefusal : Fault → Bool
  | .missingFile _ | .system _ => true
  | _ => false

/-- Files whose system refuses as systems do. -/
structure FileSystem.Steady (φ : Type) [FileSystem φ] : Prop where
  write : ∀ path text, Fails (·.isRefusal = true) (FileSystem.write path text : Attempt φ Unit)
  holds : ∀ path, Fails (·.isRefusal = true) (FileSystem.holds path : Attempt φ Bool)
  remove : ∀ path, Fails (·.isRefusal = true) (FileSystem.remove path : Attempt φ Unit)

theorem MemoryFiles.steady : FileSystem.Steady MemoryFiles where
  write _ _ := Attempt.fails_modify _
  holds _ := Attempt.fails_get.bind fun _ => Attempt.fails_pure _
  remove _ := Attempt.fails_get.bind fun _ =>
    Attempt.fails_ite (Attempt.fails_modify _) (Attempt.fails_throw rfl)

namespace FileStore

theorem account_refusal (path verb : String) {fault : Fault} (refusal : fault.isRefusal = true) :
    (account path verb fault).isExpected = true := by
  cases fault <;> first | rfl | cases refusal

theorem accountAll_refusal (path verb : String) {fault : Fault} (refusal : fault.isRefusal = true) :
    (accountAll path verb fault).isExpected = true := by
  cases fault <;> first | rfl | cases refusal

variable {φ : Type}

theorem fails_onFiles {α : Type} {kind : Fault → Prop} {work : String → Attempt φ α}
    (inner : ∀ path, Fails kind (work path)) : Fails kind (onFiles work) :=
  fun store fault failed => inner store.path store.files fault failed

variable [FileSystem φ] {inner outer : Fault → Prop}

theorem fails_save (writes : ∀ path text, Fails inner (FileSystem.write path text : Attempt φ Unit))
    (accounts : ∀ path verb fault, inner fault → outer (accountAll path verb fault))
    (unprinted : ∀ path, outer (.unencodable path)) (d : Document) :
    Fails outer (save d : Attempt (FileStore φ) Unit) := by
  refine Attempt.fails_get.bind fun store => ?_
  cases d.print? with
  | none =>
      intro _ fault failed
      cases failed
      exact unprinted _
  | some text =>
      exact (fails_onFiles fun path => writes path text).rethrow (accounts _ _)

theorem fails_holds (holds : ∀ path, Fails inner (FileSystem.holds path : Attempt φ Bool))
    (accounts : ∀ path verb fault, inner fault → outer (accountAll path verb fault)) :
    Fails outer (FileStore.holds : Attempt (FileStore φ) Bool) :=
  Attempt.fails_get.bind fun _ => (fails_onFiles holds).rethrow (accounts _ _)

theorem fails_delete (removes : ∀ path, Fails inner (FileSystem.remove path : Attempt φ Unit))
    (accounts : ∀ path verb fault, inner fault → outer (account path verb fault)) :
    Fails outer (delete : Attempt (FileStore φ) Unit) :=
  Attempt.fails_get.bind fun _ => (fails_onFiles removes).rethrow (accounts _ _)

/-- What a file store reports is expected if its system is steady. -/
theorem steady (system : FileSystem.Steady φ) : Backend.Steady (FileStore φ) where
  save := fails_save system.write (fun path verb _ => accountAll_refusal path verb) fun _ => rfl
  holds := fails_holds system.holds fun path verb _ => accountAll_refusal path verb
  delete := fails_delete system.remove fun path verb _ => account_refusal path verb

end FileStore

namespace Desk

variable {σ : Type}

theorem fails_onStore {α : Type} {kind : Fault → Prop} {work : Attempt σ α}
    (inner : Fails kind work) : Fails kind (onStore work) :=
  fun desk => inner desk.archive.store

variable [Backend σ] {desk after : Desk σ} {now : Timestamp} {fault : Fault}

theorem clear_fails (steady : Backend.Steady σ) :
    Fails (·.isExpected = true) (clear : Attempt (Desk σ) Unit) :=
  (fails_onStore steady.holds).bind fun _ =>
    Attempt.fails_ite (fails_onStore steady.delete) (Attempt.fails_pure _)

/-- Saving a typed document fails as expected, but for a schema that cannot be checked against. -/
theorem save_fails (steady : Backend.Steady σ) (typed : desk.project.document.Typed condition)
    (proper : now.Proper) (failed : (save now desk).1 = .error fault) :
    (desk.project.blueprint.Checkable desk.project.document → fault.isExpected = true) ∧
      (¬desk.project.blueprint.Checkable desk.project.document → fault = .invalidSchema) := by
  obtain ⟨d, stamped, phases, _, _, saves⟩ := run_save_typed typed proper
  have same : desk.project.blueprint.Checkable desk.project.document ↔ desk.project.blueprint.Checkable d := by
    rw [Blueprint.Checkable, Blueprint.Checkable, Document.phaseNames, Document.phaseNames, phases]
  rw [saves] at failed
  rw [same]
  constructor
  · intro checkable
    rcases deposit_eq_error.mp failed with refused | ⟨_, unstored⟩
    · obtain ⟨found, rfl⟩ := Blueprint.check_of_checkable stamped checkable _ refused
      rfl
    · exact steady.save d _ fault unstored
  · intro not
    have refused := Blueprint.check_unusable stamped not desk.archive.checkers
    rcases deposit_eq_error.mp failed with other | ⟨passed, _⟩
    · exact Except.error.inj (other.symm.trans refused)
    · cases passed.symm.trans refused

/-- The same of keeping, which does not check what is removed. -/
theorem keep_fails (desk : Desk σ) (steady : Backend.Steady σ)
    (typed : desk.project.document.Typed condition)
    (proper : now.Proper) (failed : (keep now desk).1 = .error fault) :
    (desk.project.state = noProject ∨ desk.project.blueprint.Checkable desk.project.document →
      fault.isExpected = true) ∧
    (¬(desk.project.state = noProject ∨
      desk.project.blueprint.Checkable desk.project.document) → fault = .invalidSchema) := by
  rw [run_keep] at failed
  by_cases ended : desk.project.state = noProject
  · rw [if_pos ended] at failed
    exact ⟨fun _ => clear_fails steady desk fault failed, fun not => absurd (.inl ended) not⟩
  · rw [if_neg ended] at failed
    obtain ⟨expected, unusable⟩ := save_fails steady typed proper failed
    constructor
    · intro either
      rcases either with there | checkable
      · exact absurd there ended
      · exact expected checkable
    · exact fun not => unusable fun checkable => not (.inr checkable)

end Desk

namespace Project

/-- The event that a call is to fire: the one given, or the one that the current state asks for. -/
def eventFor (p : Project) : Option String → Except Fault String
  | some event => .ok event
  | none => p.determineEvent

/-- A call fires a transition: its guard passes and its actions do not fail. -/
def Fires (p : Project) (now : Timestamp) (event : Option String) (t : Transition) (moved : Project) :
    Prop :=
  ∃ name, p.eventFor event = .ok name ∧ p.fire now name = (.ok t, moved)

end Project

namespace Desk

variable {σ : Type} [Backend σ]

/-- The two ways to move a project: by an event, and by the one that its state asks for. -/
def proceed (now : Timestamp) : Option String → Attempt (Desk σ) Move
  | some event => fire now event
  | none => advance now

theorem run_proceed (now : Timestamp) (event : Option String) (desk : Desk σ) :
    proceed now event desk =
      match desk.project.eventFor event with
      | .ok name => fire now name desk
      | .error fault => (.error fault, desk) := by
  cases event with
  | some event => rfl
  | none =>
      rw [proceed, advance, Attempt.run_bind_ok (Attempt.run_get _), Attempt.ofExcept_bind,
        Project.eventFor]
      cases desk.project.determineEvent <;> rfl

theorem run_moves (now : Timestamp) (event : Option String) (desk : Desk σ) :
    run now ⟨event, false, false⟩ desk =
      ((proceed now event desk).1.map .move, (proceed now event desk).2) := by
  cases event with
  | some event =>
      rw [run, proceed, Attempt.run_bind]
      rcases fire now event desk with ⟨fault | m, after⟩ <;> rfl
  | none =>
      rw [run, proceed, Attempt.run_bind]
      rcases advance now desk with ⟨fault | m, after⟩ <;> rfl

theorem proceed_fires {now : Timestamp} {event : Option String} {desk : Desk σ} {t : Transition}
    {moved : Project} (fires : desk.project.Fires now event t moved) :
    proceed now event desk = settle now desk.project.state t (desk.withProject moved) := by
  obtain ⟨name, asked, fired⟩ := fires
  rw [run_proceed, asked]
  simp only [run_fire, fired]

theorem proceed_stays {now : Timestamp} {event : Option String} {desk : Desk σ}
    (never : ∀ t moved, ¬desk.project.Fires now event t moved) :
    (proceed now event desk).2.project.machine = desk.project.machine := by
  rw [run_proceed]
  cases asked : desk.project.eventFor event with
  | error fault => rfl
  | ok name =>
      simp only [run_fire]
      rcases fired : desk.project.fire now name with ⟨fault | t, moved⟩
      · exact Project.fire_error fired
      · exact absurd ⟨name, asked, fired⟩ (never t moved)

theorem fires_state {now : Timestamp} {event : Option String} {p moved : Project} {t : Transition}
    (fires : p.Fires now event t moved) : moved.state = t.target := by
  obtain ⟨name, _, fired⟩ := fires
  obtain ⟨_, _, there⟩ := Project.fire_ok fired
  rw [Project.state, there, Machine.moved]

/-- What a failure after a move tells, and what keeps it from telling the move. -/
theorem settle_fails {now : Timestamp} {source : String} {t : Transition} {desk after : Desk σ}
    {fault : Fault} (failed : settle now source t desk = (.error fault, after)) :
    (∃ cause, fault = .unsaved (t.move source) cause) ↔
      ∃ document cause,
        Edit.afterTransition now desk.project.blueprint source t desk.project.document =
          (.ok (), document) ∧
        (keep now (desk.withDocument document)).1 = .error cause ∧ cause.isExpected = true := by
  have never := Edit.afterTransition_fails now desk.project.blueprint source t desk.project.document
  rcases edited : Edit.afterTransition now desk.project.blueprint source t desk.project.document with
    ⟨other | ⟨⟩, document⟩
  · rw [settle, edited] at failed
    rw [edited] at never
    cases failed
    constructor
    · rintro ⟨cause, rfl⟩
      cases (never _ rfl).1
    · rintro ⟨_, _, same, _⟩
      cases same
  · obtain ⟨cause, kept, rfl⟩ := (settle_eq_error edited).mp (congrArg Prod.fst failed)
    rw [Fault.afterMove]
    constructor
    · intro told
      refine ⟨document, cause, rfl, kept, ?_⟩
      by_contra unexpected
      rw [if_neg unexpected] at told
      obtain ⟨inner, rfl⟩ := told
      exact unexpected rfl
    · rintro ⟨_, _, same, again, expected⟩
      cases same
      rw [kept] at again
      cases again
      rw [if_pos expected]
      exact ⟨cause, rfl⟩

/-- In a typed document whose storage is steady, a move is told unless a schema cannot be checked
against. -/
theorem settle_fails_typed (steady : Backend.Steady σ) {now : Timestamp} (proper : now.Proper)
    {source : String} {t : Transition} (desk : Desk σ) {after : Desk σ} {fault : Fault}
    (typed : desk.project.document.Typed condition)
    (failed : settle now source t desk = (.error fault, after)) :
    (desk.project.state = noProject ∨ desk.project.blueprint.Checkable desk.project.document →
      ∃ cause, fault = .unsaved (t.move source) cause) ∧
    (¬(desk.project.state = noProject ∨
      desk.project.blueprint.Checkable desk.project.document) → fault = .invalidSchema) := by
  obtain ⟨document, edited, editedTyped, sameNames⟩ :=
    Edit.afterTransition_keeps typed proper desk.project.blueprint source t
  have same : (desk.withDocument document).project.blueprint.Checkable document ↔
      desk.project.blueprint.Checkable desk.project.document := by
    rw [Blueprint.Checkable, Blueprint.Checkable, sameNames]
    rfl
  obtain ⟨cause, kept, rfl⟩ := (settle_eq_error edited).mp (congrArg Prod.fst failed)
  obtain ⟨expected, unusable⟩ := keep_fails (desk.withDocument document) steady editedTyped proper kept
  constructor
  · intro either
    rw [Fault.afterMove, if_pos (expected (either.imp_right same.mpr))]
    exact ⟨cause, rfl⟩
  · intro not
    rw [unusable fun either => not (either.imp_right same.mp)]
    rfl

/-- A call that fails either moved nothing, or the machine stands in the target of the transition that
fired; then the fault tells the move if it was storing that failed as expected. In a typed document
whose storage is steady, only a schema that cannot be checked against keeps a move from being told. -/
theorem proceed_fails {now : Timestamp} {event : Option String} {desk after : Desk σ} {fault : Fault}
    (failed : proceed now event desk = (.error fault, after)) :
    ((∀ t moved, ¬desk.project.Fires now event t moved) → after.project.state = desk.project.state) ∧
    ∀ t moved, desk.project.Fires now event t moved →
      after.project.state = t.target ∧
      ((∃ cause, fault = .unsaved (t.move desk.project.state) cause) ↔
        ∃ document cause,
          Edit.afterTransition now moved.blueprint desk.project.state t moved.document =
            (.ok (), document) ∧
          (keep now ⟨{ moved with document }, desk.archive⟩).1 = .error cause ∧
          cause.isExpected = true) ∧
      (Backend.Steady σ → now.Proper → moved.document.Typed condition →
        ((∃ cause, fault = .unsaved (t.move desk.project.state) cause) ↔
          t.target = noProject ∨ moved.blueprint.Checkable moved.document) ∧
        (¬(t.target = noProject ∨ moved.blueprint.Checkable moved.document) →
          fault = .invalidSchema)) := by
  constructor
  · intro never
    have stays := proceed_stays never
    rw [failed] at stays
    exact congrArg Machine.state stays
  · intro t moved fires
    rw [proceed_fires fires] at failed
    have there := fires_state fires
    have stays := settle_machine now desk.project.state t (desk.withProject moved)
    rw [failed] at stays
    refine ⟨?_, settle_fails failed, ?_⟩
    · exact (congrArg Machine.state stays).trans there
    · intro steady proper typed
      obtain ⟨told, unusable⟩ :=
        settle_fails_typed steady proper (desk.withProject moved) typed failed
      have state : (desk.withProject moved).project.state = t.target := there
      rw [state] at told unusable
      refine ⟨⟨?_, told⟩, unusable⟩
      rintro ⟨cause, rfl⟩
      by_contra not
      cases unusable not

end Desk

/-- A phase whose declaration for a schema makes none. -/
def Desk.unusable : Desk (FileStore MemoryFiles) := .sample .unusable []

theorem Desk.proceed_fails_unusable :
    (Draft.sample .unusable).build = .ok Desk.unusable.project.blueprint ∧
      ∃ after, Desk.proceed newYear (some "finish") .unusable = (.error .invalidSchema, after) ∧
        after.project.state = "Done" := by
  refine ⟨Draft.build_sample .unusable, ?_⟩
  have fails : (Desk.proceed newYear (some "finish") .unusable).1.isOk = false := by decide +kernel
  have fires : Desk.unusable.project.Fires newYear (some "finish")
      (.plain "Start" "Done" "finish")
      { Desk.unusable.project with machine := Desk.unusable.project.machine.moved "Done" } :=
    ⟨"finish", rfl, rfl⟩
  have typed : Desk.unusable.project.document.Typed fun _ _ => True :=
    Document.sample_typed True.intro
  rcases failed : Desk.proceed newYear (some "finish") .unusable with ⟨fault | m, after⟩
  · obtain ⟨there, _, exact⟩ := (Desk.proceed_fails failed).2 _ _ fires
    have unusable : ¬("Done" = noProject ∨
        Desk.unusable.project.blueprint.Checkable Desk.unusable.project.document) := by
      rintro (ended | checkable)
      · revert ended
        decide
      · cases checkable "plan" List.mem_cons_self _ rfl .unusable rfl
    obtain rfl := (exact (FileStore.steady MemoryFiles.steady) newYear_proper typed).2 unusable
    exact ⟨after, rfl, there⟩
  · rw [failed] at fails
    cases fails

end Lifecycle
