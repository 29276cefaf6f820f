import Lifecycle.Proofs.Linear
import Lifecycle.Proofs.Owned
import Lifecycle.Proofs.Retrying
import Lifecycle.Proofs.Valid
/-!
Projects that stay valid. Over every transition of a type that is always at hand a valid project stays one,
so that only storage keeps a move of it from being stored. -/

namespace Lifecycle

namespace Standard

variable {d edited : Document} {p q r : Phase} {review : Artifact} {now : Timestamp}

/-- What the implementation may hold. -/
def implementationPlan : PhasePlan where
  name := "implementation"
  start := some "ImplementationPlanning"
  finish := some "ImplementationExecuting"
  inputTypes := ["review", "context"]
  outputTypes := []
  hasTasks := true
  schema := some implementationSchema

theorem implementation_declared : blueprint.phase? "implementation" = some implementationPlan := rfl

/-- An implementation that is taken up again may hold the review that it takes along, and need not have its
tasks approved. -/
theorem reworked_approves (approved : blueprint.Approves "implementation" p) (beside : r.Legible)
    (dated : now.Proper) {test : Artifact → Except Fault Bool}
    (found : r.newestOutput? "review" test = .ok (some review)) (made : p.reworked now review = .ok q) :
    blueprint.Approves "implementation" q := by
  have ⟨outputs, older, newer, given, newest⟩ := Phase.newestOutput?_eq_some_iff.mp found
  have member : .proper review ∈ outputs := by
    rw [newest.split]
    exact List.mem_append_right older List.mem_cons_self
  have ⟨i, metadata, inputs, iterated, taken, added, same⟩ := Phase.reworked_eq_ok.mp made
  have counted := (approved.reopen dated).iterate iterated
  have ⟨plan, declared, passes⟩ := counted.passes
  rw [implementation_declared, Option.some.injEq] at declared
  rw [← declared] at passes
  have listed : implementationPlan.inputTypes.any review.type.holds = true := by
    simp only [implementationPlan, List.any_cons, newest.fits, Bool.true_or]
  have optional : ∀ f ∈ [(⟨"tasks_approved", .optional .flag, false⟩ : Field)],
      f.name = "tasks_approved" → f.required = false := by decide
  rw [same]
  exact ⟨(counted.legible.takeEntry taken).addInput beside given member added, _,
    implementation_declared, PhasePlan.artifactFindings_add passes.inputs listed added, passes.outputs,
    passes.tasks, passes.metadata.take rfl optional taken⟩

theorem startReviewRound_safe (dated : now.Proper) : Edit.Safe blueprint (startReviewRound now) := by
  have counts : Edit.Safe blueprint (do let _ ← Edit.iteratePhase "review" : Edit Unit) :=
    (Edit.iteratePhase_safe "review").bind fun _ => Edit.safe_pure ()
  apply (Edit.safe_phase "review").bind
  intro review
  exact Edit.safe_ite ((Edit.reopenPhase_safe dated "review").bind fun _ => counts) counts

theorem rework_safe (dated : now.Proper) : Edit.Safe blueprint (rework now) := by
  intro d _ edited valid done
  have ⟨p, q, r, review, there, beside, found, _, made, same⟩ := rework_eq_ok.mp done
  rw [same]
  exact ⟨valid.modifyPhase (reworked_approves (valid.approves there) (valid.approves beside).legible dated
    found made), rfl⟩

theorem entering_safe (dated : now.Proper) (t : Transition) : Edit.Safe blueprint (entering now t) := by
  rw [entering]
  split
  · exact startReviewRound_safe dated
  · exact rework_safe dated
  · exact Edit.safe_pure ()

end Standard

/-- A type over whose transitions a valid document stays one, in a state that has a name. -/
def Blueprint.Preserves (b : Blueprint) : Prop :=
  ∀ (p moved : Project) (now : Timestamp) (event : Option String) (t : Transition),
    p.machine = .start b p.state → p.document.Valid b → now.Proper → p.Fires now event t moved →
      moved.machine = .start b t.target ∧ t.target ≠ "" ∧ p.document.Follows b moved.document

/-- The phases are seen to after every such transition. -/
theorem Blueprint.Preserves.settles {b : Blueprint} (preserves : b.Preserves) {p moved : Project}
    {now : Timestamp} {event : Option String} {t : Transition} (machine : p.machine = .start b p.state)
    (valid : p.document.Valid b) (dated : now.Proper) (fires : p.Fires now event t moved) :
    moved.machine = .start b t.target ∧ t.target ≠ "" ∧ ∃ edited,
      Edit.afterTransition now moved.blueprint p.state t moved.document = (.ok (), edited) ∧
        p.document.Follows b edited := by
  have ⟨there, named, follows⟩ := preserves p moved now event t machine valid dated fires
  have type : moved.blueprint = b := congrArg Machine.blueprint there
  have ⟨edited, updated, later⟩ := Edit.afterTransition_safe dated p.state t follows.valid
  rw [type]
  exact ⟨there, named, edited, updated, follows.trans later⟩

theorem Course.preserves (c : Course) (named : ∀ t ∈ c.blueprint.transitions, t.target ≠ "") :
    c.blueprint.Preserves := by
  intro p moved now event t machine valid _ fires
  have ⟨name, _, fired⟩ := fires
  cases fire_outcome machine now name with
  | inl refused =>
      have ⟨fault, failed⟩ := refused
      rw [fired] at failed
      cases failed
  | inr goes =>
      have ⟨other, member, _, same⟩ := goes
      rw [fired] at same
      cases same
      exact ⟨rfl, named t member, valid, rfl⟩

theorem Standard.preserves : blueprint.Preserves := by
  intro p moved now event t machine valid dated fires
  have ⟨member, leaves, _, passed, fired⟩ := fires_listed machine fires
  have named : ∀ t ∈ transitions, t.target ≠ "" := by decide
  rw [← leaves] at machine
  rw [run_fire now member machine passed] at fired
  cases entered : entering now t p.document with
  | mk outcome edited =>
      rw [entered] at fired
      cases outcome with
      | error fault => cases fired
      | ok =>
          cases fired
          exact ⟨rfl, named t member, entering_safe dated t _ _ _ valid entered⟩

theorem Registry.builtIn_preserves : ∀ entry ∈ builtIn, entry.2.Preserves := by
  intro entry member
  simp only [builtIn, List.mem_cons, List.not_mem_nil, or_false] at member
  rcases member with rfl | rfl | rfl | rfl
  · exact Standard.preserves
  · exact Exploration.course.preserves (by decide)
  · exact Design.course.preserves (by decide)
  · exact Breakdown.course.preserves (by decide)

/-- Storage that fails at what is asked of it after a move: to keep a document, or to drop what it has. -/
inductive Backend.FailsWith {σ : Type} [Backend σ] (store : σ) (cause : Fault) : Prop where
  | save (d : Document) (failed : (Backend.save d store).1 = .error cause)
  | holds (failed : (Backend.holds store).1 = .error cause)
  | delete (after : σ) (held : Backend.holds store = (.ok true, after))
      (failed : (Backend.delete after).1 = .error cause)

theorem Document.current_congr {d e : Document} (same : d.statechart = e.statechart) :
    d.current = e.current := by
  rw [current, current, same]

theorem Document.sync_of_ok {d : Document} {noted : Slot String} (known : d.current = .ok noted)
    (now : Timestamp) (state : String) : ∃ synced, d.sync now state = .ok synced := by
  rw [sync, known]
  simp only [bind, Except.bind]
  split
  · exact ⟨_, rfl⟩
  · exact ⟨_, rfl⟩

namespace Desk

variable {σ : Type} [Backend σ] {b : Blueprint} {desk : Desk σ} {now : Timestamp}

/-- Nothing can be noted of a machine where something else stands for what is noted. -/
theorem sync_unexpected {d : Document} {state : String} {fault : Fault}
    (failed : d.sync now state = .error fault) : fault.isExpected = false := by
  rw [Document.sync, Document.current] at failed
  cases held : d.statechart with
  | proper s =>
      rw [held] at failed
      simp only [Slot.having, bind, Except.bind, pure, Except.pure] at failed
      split at failed
      · cases failed
      · cases failed
  | stray v =>
      rw [held] at failed
      cases failed
      rfl

theorem keep_document (now : Timestamp) (desk : Desk σ) :
    (keep now desk).2.project.document = desk.project.document ∨
      ∃ d, desk.project.document.sync now desk.project.state = .ok d ∧
        (keep now desk).2.project.document = { d with updatedAt := .proper now } := by
  by_cases ended : desk.project.state = noProject
  · exact .inl (congrArg Project.document (keep_project_ended ended now))
  · cases synced : desk.project.document.sync now desk.project.state with
    | ok d => exact .inr ⟨d, rfl, congrArg Project.document (keep_project ended synced)⟩
    | error fault =>
        rw [run_keep, if_neg ended, run_save, synced]
        exact .inl rfl

/-- Keeping a valid project fails as storage does, or because nothing can be noted of its machine. -/
theorem keep_blames_storage (desk : Desk σ) (machine : desk.project.blueprint = b)
    (valid : desk.project.document.Valid b) (named : desk.project.state ≠ "") (dated : now.Proper)
    {cause : Fault} (failed : (keep now desk).1 = .error cause) (expected : cause.isExpected = true) :
    Backend.FailsWith desk.archive.store cause := by
  rw [run_keep] at failed
  split at failed
  · rw [run_clear] at failed
    cases held : Backend.holds desk.archive.store with
    | mk outcome after =>
        rw [held] at failed
        cases outcome with
        | error fault =>
            cases failed
            exact .holds (congrArg Prod.fst held)
        | ok there =>
            cases there with
            | false => cases failed
            | true => exact .delete after held failed
  · rw [run_save] at failed
    cases synced : desk.project.document.sync now desk.project.state with
    | error fault =>
        rw [synced] at failed
        cases failed
        rw [sync_unexpected synced] at expected
        cases expected
    | ok d =>
        rw [synced] at failed
        change (deposit { d with updatedAt := .proper now }
          (desk.withDocument { d with updatedAt := .proper now })).1 = _ at failed
        have passes := Blueprint.check_of_valid ((valid.sync named dated synced).stamped dated)
          desk.archive.checkers
        rw [← machine] at passes
        rcases deposit_eq_error.mp failed with refused | ⟨_, unstored⟩
        · cases passes.symm.trans refused
        · exact .save _ unstored

/-- A document in which the machine is noted can be brought up to date, whether that has been done or not. -/
theorem keep_valid (desk : Desk σ) (valid : desk.project.document.Valid b)
    (named : desk.project.state ≠ "") (dated : now.Proper) :
    (keep now desk).2.project.document.Valid b ∧
      ∀ noted, desk.project.document.current = .ok noted →
        ∃ again, (keep now desk).2.project.document.current = .ok again := by
  cases keep_document now desk with
  | inl same =>
      rw [same]
      exact ⟨valid, fun noted known => ⟨noted, known⟩⟩
  | inr changed =>
      have ⟨d, synced, same⟩ := changed
      have current := Document.current_of_sync synced
      rw [same]
      exact ⟨(valid.sync named dated synced).stamped dated, fun _ _ => ⟨_, current⟩⟩

/-- A call that fires a transition leaves the project valid in its new state, stored or not. -/
theorem proceed_valid (preserves : b.Preserves) (machine : desk.project.machine = .start b desk.project.state)
    (valid : desk.project.document.Valid b) (dated : now.Proper) {event : Option String} {t : Transition}
    {moved : Project} (fires : desk.project.Fires now event t moved) :
    (proceed now event desk).2.project.machine = .start b t.target ∧ t.target ≠ "" ∧
      (proceed now event desk).2.project.document.Valid b ∧
      ∀ noted, desk.project.document.current = .ok noted →
        ∃ again, (proceed now event desk).2.project.document.current = .ok again := by
  have ⟨there, named, edited, updated, follows⟩ := preserves.settles machine valid dated fires
  have state : moved.state = t.target := congrArg Machine.state there
  have ⟨stays, current⟩ :=
    keep_valid ((desk.withProject moved).withDocument edited) follows.valid (state ▸ named) dated
  rw [proceed_fires fires, run_settle updated]
  refine ⟨(keep_machine now _).trans there, named, stays, ?_⟩
  intro noted known
  apply current noted
  rw [← known]
  exact Document.current_congr follows.noted

/-- What keeps a move of a valid project from being stored is storage, and never validation. -/
theorem proceed_blames_storage (preserves : b.Preserves)
    (machine : desk.project.machine = .start b desk.project.state) (valid : desk.project.document.Valid b)
    (dated : now.Proper) {event : Option String} {m : Move} {cause : Fault} {after : Desk σ}
    (failed : proceed now event desk = (.error (.unsaved m cause), after)) :
    Backend.FailsWith desk.archive.store cause := by
  have ⟨t, moved, fires, failed⟩ := proceed_settles (congrArg Prod.fst failed) nofun
  have ⟨there, named, edited, updated, follows⟩ := preserves.settles machine valid dated fires
  have type : moved.blueprint = b := congrArg Machine.blueprint there
  have state : moved.state = t.target := congrArg Machine.state there
  have ⟨fault, failed, told⟩ := (settle_eq_error updated).mp failed
  have ⟨_, same, expected⟩ := unsaved_of_afterMove told
  rw [same]
  exact keep_blames_storage ((desk.withProject moved).withDocument edited) type follows.valid
    (state ▸ named) dated failed expected

/-- A project of a type that is always at hand in which validation finds nothing wrong: after every call
that fires a transition nothing is wrong with it either, brought up to date with its machine or not. If the
move was not stored that was a failure of storage. -/
theorem builtIn_stays_valid {type : String} {b : Blueprint} (builtIn : (type, b) ∈ Registry.builtIn)
    {desk : Desk σ} (machine : desk.project.machine = .start b desk.project.state) {checkers : Checkers}
    (clean : (b.findings desk.project.document checkers).1 = .ok []) {now : Timestamp}
    (dated : now.Proper) (event : Option String) :
    (∀ t moved, desk.project.Fires now event t moved →
      let after := (proceed now event desk).2.project
      after.machine = .start b t.target ∧ ∀ later : Timestamp, later.Proper → ∀ checkers,
        (b.findings after.document checkers).1 = .ok [] ∧
        (b.findings { after.document with statechart := .proper (.noted t.target later) } checkers).1 =
          .ok [] ∧
        ∀ noted, desk.project.document.current = .ok noted → ∃ synced,
          after.document.sync later t.target = .ok synced ∧ (b.findings synced checkers).1 = .ok []) ∧
    ∀ m cause after, proceed now event desk = (.error (.unsaved m cause), after) →
      Backend.FailsWith desk.archive.store cause := by
  have preserves := Registry.builtIn_preserves _ builtIn
  have valid := Blueprint.findings_nil_iff.mp clean
  constructor
  · intro t moved fires after
    have ⟨there, named, stays, current⟩ := proceed_valid preserves machine valid dated fires
    refine ⟨there, fun later dated checkers => ⟨?_, ?_, ?_⟩⟩
    · exact Blueprint.findings_nil_iff.mpr stays
    · exact Blueprint.findings_nil_iff.mpr (stays.noted named dated)
    · intro noted known
      have ⟨again, still⟩ := current noted known
      have ⟨synced, done⟩ := Document.sync_of_ok still later t.target
      exact ⟨synced, done, Blueprint.findings_nil_iff.mpr (stays.sync named dated done)⟩
  · exact fun m cause after failed => proceed_blames_storage preserves machine valid dated failed

end Desk

namespace Standard

/-- A project in review, its one review failed, over storage that is not to be had for once. -/
def refused : Desk (Unsteady MemoryStore) :=
  ⟨reviewed "fail", ⟨⟨⟨none, 0⟩, [(.store, [true])]⟩, []⟩⟩

/-- That project when it has gone back. -/
def returned : Project :=
  let document := (entering newYear failReview (reviewed "fail").document).2
  { reviewed "fail" with document, machine := .start blueprint failReview.target }

theorem refused_returned : refused.project.Fires newYear none failReview returned := by
  have decided : refused.project.eventFor none = .ok "review_fail" :=
    (eventFor_none rfl).trans (determineEvent_review.mpr (.inr ⟨rfl, rfl⟩))
  have entered : entering newYear failReview refused.project.document = (.ok (), returned.document) :=
    Prod.ext (ok_of_toOption (by decide +kernel)) rfl
  have fired := run_fire newYear (p := refused.project) (t := failReview) (by simp [transitions]) rfl rfl
  rw [entered] at fired
  exact ⟨_, decided, fired⟩

/-- A project that went back and was not stored. -/
theorem goes_back_valid :
    ∃ m cause after synced, refused.project.Fires newYear none failReview returned ∧
      Desk.proceed newYear none refused = (.error (.unsaved m cause), after) ∧
      Backend.FailsWith refused.archive.store cause ∧
      after.project.document.sync newYear "ImplementationPlanning" = .ok synced ∧
      (blueprint.findings synced []).1 = .ok [] := by
  have listed : ("standard", blueprint) ∈ Registry.builtIn := List.mem_cons_self
  have clean : (blueprint.findings refused.project.document []).1 = .ok [] :=
    ok_of_toOption (by decide +kernel)
  obtain ⟨stays, blames⟩ := Desk.builtIn_stays_valid listed rfl clean newYear_proper none
  obtain ⟨_, later⟩ := stays failReview returned refused_returned
  obtain ⟨_, _, noted⟩ := later newYear newYear_proper []
  obtain ⟨synced, done, valid⟩ := noted _ rfl
  have fails : Desk.isUnsaved (Desk.settle newYear "ReviewActive" failReview
      (refused.withProject returned)) = true := by decide +kernel
  unfold Desk.isUnsaved at fails
  split at fails
  · next m cause after failed =>
    have proceeds := (Desk.proceed_fires refused_returned).trans failed
    rw [proceeds] at done
    have blamed := blames m cause after proceeds
    exact ⟨m, cause, after, synced, refused_returned, proceeds, blamed, done, valid⟩
  · cases fails

end Standard

end Lifecycle
