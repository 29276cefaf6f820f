import Lifecycle.Proofs.Sorting
import Lifecycle.Proofs.Unsaved
/-!
What is never blamed on an action or a guard. Whatever stands in a document, bringing it up to date,
checking it and storing it fail in ways of their own, none of which is a failure to move a project. -/

namespace Lifecycle

open Attempt (Fails)

/-- Whether a fault is not that of an action. -/
abbrev Fault.Passive (fault : Fault) : Prop := fault.isAction = false

theorem Fault.passive_of_apart {fault : Fault} (apart : fault.Apart) : fault.Passive := by
  cases fault <;> first | rfl | cases apart

namespace Value

theorem elements_apart (v : Value) : FailsAs Fault.Apart v.elements := by
  intro fault failed
  rw [elements] at failed
  split at failed
  · cases failed
  · cases failed
    rfl

theorem elementsBackward_apart (v : Value) : FailsAs Fault.Apart v.elementsBackward := by
  intro fault failed
  rw [elementsBackward] at failed
  split at failed
  · cases failed
  · cases failed
    rfl

theorem size_apart (v : Value) : FailsAs Fault.Apart v.size := by
  intro fault failed
  rw [size] at failed
  split at failed
  · cases failed
  · cases failed
    rfl

theorem lessScalar_apart (left right : Value) : FailsAs Fault.Apart (lessScalar left right) := by
  intro fault failed
  rw [lessScalar] at failed
  split at failed
  · cases failed
  · cases failed
    rfl

mutual

theorem less_apart (left right : Value) : FailsAs Fault.Apart (less left right) := by
  unfold less
  split
  · split
    · exact .ok _
    · exact lessScalar_apart _ _
  · split
    · exact lessItems_apart _ _
    · exact lessScalar_apart _ _
  · exact lessScalar_apart _ _

theorem lessItems_apart (left right : List Value) : FailsAs Fault.Apart (lessItems left right) := by
  unfold lessItems
  split
  · exact .ok _
  · split
    · exact .ok _
    · exact FailsAs.ite (lessItems_apart _ _) (less_apart _ _)

end

theorem textsFrom_apart (n : Nat) (list : List Value) : FailsAs Fault.Apart (textsFrom n list) := by
  induction list generalizing n with
  | nil => exact .ok _
  | cons v rest ih =>
      cases v with
      | text s => exact (ih _).map _
      | _ =>
          intro fault failed
          cases failed
          rfl

theorem sortedTexts_apart (v : Value) : FailsAs Fault.Apart v.sortedTexts :=
  (elements_apart v).bind fun _ => (Sorting.sort_fails less_apart _).bind fun _ =>
    textsFrom_apart 0 _

end Value

theorem Slot.having_apart {α : Type} (part : String) (s : Slot α) :
    FailsAs Fault.Apart (s.having part) := by
  intro fault failed
  cases s with
  | proper a => cases failed
  | stray v =>
      cases failed
      rfl

theorem Many.elements_apart {α : Type} (list : Many α) : FailsAs Fault.Apart list.elements := by
  cases list with
  | proper items => exact .ok _
  | stray v => exact v.elements_apart.map _

theorem FailsAs.mapIdxM {ε α β : Type} {kind : ε → Prop} {f : Nat → α → Except ε β}
    (each : ∀ n a, FailsAs kind (f n a)) (list : List α) : FailsAs kind (list.mapIdxM f) := by
  have go (done : Array β) : FailsAs kind (List.mapIdxM.go f list done) := by
    induction list generalizing done with
    | nil => exact .ok _
    | cons a rest ih => exact (each _ a).bind fun _ => ih _
  exact go #[]

theorem Schema.check_apart (s : Schema) (v : Value) : Fails Fault.Apart (s.check v) := by
  intro checkers fault failed
  cases usable : s.usable with
  | false =>
      rw [check, usable] at failed
      cases failed
      rfl
  | true =>
      rw [run_check usable] at failed
      cases failed

namespace PhasePlan

theorem artifactFindings_apart (allowed : List String) (phase category : String)
    (artifacts : Many Artifact) :
    FailsAs Fault.Apart (artifactFindings allowed phase category artifacts) := by
  refine FailsAs.ite (.ok _) (artifacts.elements_apart.bind fun list => ?_)
  refine (FailsAs.mapIdxM (fun n s => ?_) list).bind fun _ => .ok _
  exact (s.having_apart _).bind fun _ => FailsAs.ite (.ok _) (.ok _)

theorem taskFindings_apart (plan : PhasePlan) (phase : String) (tasks : Many Task) :
    FailsAs Fault.Apart (plan.taskFindings phase tasks) := by
  refine FailsAs.ite (.ok _) (FailsAs.bind ?_ fun _ => .ok _)
  cases tasks with
  | proper list => exact .ok _
  | stray v => exact v.size_apart

theorem metadataFindings_apart (plan : PhasePlan) (metadata : Slot Metadata) :
    Fails Fault.Apart (plan.metadataFindings metadata) := by
  rw [metadataFindings]
  split
  · exact (Schema.check_apart _ _).bind fun _ => Attempt.fails_pure _
  · refine Attempt.fails_ite ?_ (Attempt.fails_pure _)
    refine (Attempt.fails_ofExcept ?_).bind fun _ => Attempt.fails_pure _
    cases metadata with
    | proper m => exact FailsAs.ok _
    | stray v => exact v.sortedTexts_apart

theorem findings_apart (plan : PhasePlan) (name : String) (p : Phase) :
    Fails Fault.Apart (plan.findings name p) :=
  (Attempt.fails_ofExcept (artifactFindings_apart _ _ _ _)).bind fun _ =>
    (Attempt.fails_ofExcept (artifactFindings_apart _ _ _ _)).bind fun _ =>
      (Attempt.fails_ofExcept (plan.taskFindings_apart _ _)).bind fun _ =>
        (plan.metadataFindings_apart _).bind fun _ => Attempt.fails_pure _

end PhasePlan

/-- A check finds what it finds, or meets something that cannot be checked. -/
theorem Blueprint.check_apart (b : Blueprint) (d : Document) : Fails Fault.Apart (b.check d) := by
  refine Fails.bind (Fails.bind ?_ fun _ => Attempt.fails_pure _) fun _ =>
    Attempt.fails_ite (Attempt.fails_throw rfl) (Attempt.fails_pure _)
  refine (Attempt.fails_ofExcept ?_).bind fun entries => (Fails.mapM (fun entry => ?_) entries).bind
    fun _ => Attempt.fails_pure _
  · cases d.phases with
    | proper entries => exact FailsAs.ok _
    | stray v =>
        intro fault failed
        cases failed
        rfl
  · rw [phaseFindings]
    split
    · exact (Attempt.fails_ofExcept (entry.2.having_apart _)).bind fun p =>
        PhasePlan.findings_apart _ _ p
    · exact Attempt.fails_pure _

theorem Document.sync_apart (now : Timestamp) (state : String) (d : Document) :
    FailsAs Fault.Apart (d.sync now state) :=
  (((d.statechart.having_apart _).bind fun _ => .ok _).bind fun _ => FailsAs.ite (.ok _) (.ok _))

namespace Document

theorem phase?_apart (d : Document) (name : String) : FailsAs Fault.Apart (d.phase? name) := by
  refine (d.phases.having_apart _).bind fun entries => ?_
  split
  · exact .ok _
  · exact .ok _
  · next s _ _ => exact (s.having_apart _).map _

theorem askPhase_apart {α : Type} (d : Document) (name : String) (missing : α)
    {question : Phase → Except Fault α} (asks : ∀ p, FailsAs Fault.Apart (question p)) :
    FailsAs Fault.Apart (d.askPhase name missing question) := by
  refine (d.phase?_apart name).bind fun found => ?_
  cases found with
  | some p => exact asks p
  | none => exact .ok _

end Document

theorem Slot.find?_apart {α : Type} {part : String} {test : α → Except Fault Bool}
    (each : ∀ a, FailsAs Fault.Apart (test a)) (list : List (Slot α)) :
    FailsAs Fault.Apart (Slot.find? part test list) := by
  induction list with
  | nil => exact .ok _
  | cons s rest ih =>
      exact (s.having_apart _).bind fun a => (each a).bind fun _ => FailsAs.ite (.ok _) ih

theorem Phase.newestOutput?_apart (p : Phase) (type : String) {test : Artifact → Except Fault Bool}
    (each : ∀ a, FailsAs Fault.Apart (test a)) : FailsAs Fault.Apart (p.newestOutput? type test) := by
  have items : FailsAs Fault.Apart p.outputs.elementsBackward := by
    cases p.outputs with
    | proper list => exact .ok _
    | stray v => exact v.elementsBackward_apart.map _
  exact items.bind fun list => Slot.find?_apart (fun a => FailsAs.ite (each a) (.ok _)) list

/-- A choice that fails fails as its determiner does, or is explained. -/
theorem Blueprint.determineEvent_passive {b : Blueprint} {sight : Sight} {state : String}
    (chooses : ∀ determiner, Keyed.find? b.determiners state = some determiner →
      FailsAs Fault.Passive (determiner.choose sight)) :
    FailsAs Fault.Passive (b.determineEvent sight state) := by
  intro fault failed
  rw [determineEvent] at failed
  split at failed
  · cases failed
    rfl
  · next determiner found =>
    split at failed
    · next cause chosen =>
      split at failed
      · cases failed
        exact chooses determiner found _ chosen
      · cases failed
        rfl
    · split at failed
      · cases failed
        rfl
      · cases failed

/-- Storage whose failures are never those of an action. -/
structure Backend.Innocent (σ : Type) [Backend σ] : Prop where
  save : ∀ d : Document, Fails Fault.Passive (Backend.save d : Attempt σ Unit)
  holds : Fails Fault.Passive (Backend.holds : Attempt σ Bool)
  delete : Fails Fault.Passive (Backend.delete : Attempt σ Unit)

/-- Storage whose failures are never failures to move a project. -/
structure Backend.Apart (σ : Type) [Backend σ] : Prop where
  save : ∀ d : Document, Fails Fault.Apart (Backend.save d : Attempt σ Unit)
  holds : Fails Fault.Apart (Backend.holds : Attempt σ Bool)
  delete : Fails Fault.Apart (Backend.delete : Attempt σ Unit)

theorem Backend.Apart.innocent {σ : Type} [Backend σ] (apart : Apart σ) : Innocent σ where
  save d := (apart.save d).mono fun _ => Fault.passive_of_apart
  holds := apart.holds.mono fun _ => Fault.passive_of_apart
  delete := apart.delete.mono fun _ => Fault.passive_of_apart

theorem Backend.Steady.apart {σ : Type} [Backend σ] (steady : Steady σ) : Apart σ where
  save d := (steady.save d).mono fun _ => Fault.apart_of_expected
  holds := steady.holds.mono fun _ => Fault.apart_of_expected
  delete := steady.delete.mono fun _ => Fault.apart_of_expected

theorem MemoryStore.apart : Backend.Apart MemoryStore where
  save d := by
    refine (Attempt.fails_ofExcept ?_).bind fun _ => Attempt.fails_modify _
    intro fault failed
    rw [Value.checkCopy] at failed
    split at failed
    · cases failed
    · cases failed
      rfl
  holds := Attempt.fails_get.bind fun _ => Attempt.fails_pure _
  delete := Attempt.fails_get.bind fun _ =>
    Attempt.fails_ite (Attempt.fails_modify _) (Attempt.fails_throw rfl)

/-- Files whose system never fails to move a project. -/
structure FileSystem.Apart (φ : Type) [FileSystem φ] : Prop where
  write : ∀ path text, Fails Fault.Apart (FileSystem.write path text : Attempt φ Unit)
  holds : ∀ path, Fails Fault.Apart (FileSystem.holds path : Attempt φ Bool)
  remove : ∀ path, Fails Fault.Apart (FileSystem.remove path : Attempt φ Unit)

namespace FileStore

theorem account_apart (path verb : String) (fault : Fault) (apart : fault.Apart) :
    (account path verb fault).Apart := by
  cases fault <;> first | rfl | cases apart

theorem accountAll_apart (path verb : String) (fault : Fault) (apart : fault.Apart) :
    (accountAll path verb fault).Apart := by
  cases fault <;> first | rfl | cases apart

theorem apart {φ : Type} [FileSystem φ] (system : FileSystem.Apart φ) : Backend.Apart (FileStore φ) where
  save := fails_save system.write accountAll_apart fun _ => rfl
  holds := fails_holds system.holds accountAll_apart
  delete := fails_delete system.remove account_apart

end FileStore

/-- Calls that fail by a schedule add no failures to move a project. -/
theorem Unsteady.apart {σ : Type} [Backend σ] (inner : Backend.Apart σ) :
    Backend.Apart (Unsteady σ) where
  save d := fails_guarded (inner.save d) rfl .store
  holds := fails_guarded inner.holds rfl .check
  delete := fails_guarded inner.delete rfl .discard

namespace Desk

variable {σ : Type} [Backend σ] {kind : Fault → Prop}
  (spares : ∀ fault : Fault, fault.Apart → kind fault)
  (saves : ∀ d : Document, Fails kind (Backend.save d : Attempt σ Unit))
  (holds : Fails kind (Backend.holds : Attempt σ Bool))
  (deletes : Fails kind (Backend.delete : Attempt σ Unit))

include holds deletes in
theorem fails_clear : Fails kind (clear : Attempt (Desk σ) Unit) :=
  (fails_onStore holds).bind fun _ =>
    Attempt.fails_ite (fails_onStore deletes) (Attempt.fails_pure _)

include spares saves in
theorem fails_save (now : Timestamp) : Fails kind (save now : Attempt (Desk σ) Unit) := by
  intro desk fault failed
  rw [run_save] at failed
  rcases synced : desk.project.document.sync now desk.project.state with other | d
  · rw [synced] at failed
    obtain rfl := Except.error.inj failed
    exact spares _ (desk.project.document.sync_apart now _ _ synced)
  · rw [synced] at failed
    rcases deposit_eq_error.mp failed with refused | ⟨_, unstored⟩
    · exact spares _ (Blueprint.check_apart _ _ _ _ refused)
    · exact saves _ _ _ unstored

include spares saves holds deletes

theorem fails_keep (now : Timestamp) : Fails kind (keep now : Attempt (Desk σ) Unit) := by
  intro desk fault failed
  rw [run_keep] at failed
  split at failed
  · exact fails_clear holds deletes desk fault failed
  · exact fails_save spares saves now desk fault failed

/-- What remains to be done after a move fails as storing does, or in a way of its own. -/
theorem settle_failsIn (now : Timestamp) (source : String) (t : Transition) (desk : Desk σ) :
    FailsAs kind (settle now source t desk).1 := by
  intro fault failed
  have apart := Edit.afterTransition_fails now desk.project.blueprint source t desk.project.document
  rcases done : Edit.afterTransition now desk.project.blueprint source t desk.project.document with
    ⟨other | ⟨⟩, edited⟩
  · rw [settle, done] at failed
    rw [done] at apart
    obtain rfl := Except.error.inj failed
    exact spares _ (apart _ rfl).2
  · obtain ⟨cause, kept, rfl⟩ := (settle_eq_error done).mp failed
    rw [Fault.afterMove]
    split
    · exact spares _ rfl
    · exact fails_keep spares saves holds deletes now _ _ kept

omit spares saves holds deletes

theorem settle_passive (innocent : Backend.Innocent σ) (now : Timestamp) (source : String)
    (t : Transition) (desk : Desk σ) : FailsAs Fault.Passive (settle now source t desk).1 :=
  settle_failsIn (fun _ => Fault.passive_of_apart) innocent.save innocent.holds innocent.delete
    now source t desk

theorem settle_apart (apart : Backend.Apart σ) (now : Timestamp) (source : String) (t : Transition)
    (desk : Desk σ) : FailsAs Fault.Apart (settle now source t desk).1 :=
  settle_failsIn (fun _ is => is) apart.save apart.holds apart.delete now source t desk

end Desk

end Lifecycle
