import Lifecycle.Proofs.Standard.Visits
/-!
Where the phases stand over a whole run. State and number of failed reviews say what has become of each
phase and how many reviews have begun, as long as every failed review could be taken along. -/

namespace Lifecycle

namespace Phase

variable {p : Phase} {now : Timestamp}

theorem start_status {status : PhaseStatus} (given : p.status = .proper status) :
    (p.start now).status = .proper (if status = .pending then .inProgress else status) := by
  rw [start, given]
  by_cases pending : status = .pending
  · simp [Slot.holds, pending]
  · simp [Slot.holds, pending, given]

theorem complete_status {status : PhaseStatus} (given : p.status = .proper status) :
    (p.complete now).status = .proper (if status = .failed then .failed else .completed) := by
  rw [complete, given]
  by_cases failed : status = .failed
  · simp [Slot.holds, failed, given]
  · simp [Slot.holds, failed]

theorem iterate_proper {n : Int} (given : p.iteration = .proper n) :
    p.iterate = .ok { p with iteration := .proper (n + 1) } := by
  rw [iterate, given]
  rfl

theorem reworked_parts {review : Artifact} {q : Phase} (made : p.reworked now review = .ok q) {n : Int}
    (counted : p.iteration = .proper n) {list : List (Slot Artifact)} (held : p.inputs = .proper list) :
    q.status = .proper .inProgress ∧ q.iteration = .proper (n + 1) ∧
      q.inputs = .proper (list ++ [.proper review]) := by
  obtain ⟨_, inputs, _, same, taken⟩ := reworked_given made
  obtain rfl := Slot.proper.inj (same.symm.trans held)
  obtain ⟨_, _, _, iterated, _, _, rfl⟩ := reworked_eq_ok.mp made
  rw [iterate_proper (p := p.reopen now) counted] at iterated
  obtain rfl := Except.ok.inj iterated
  exact ⟨rfl, rfl, taken⟩

end Phase

namespace Standard

/-- Where each phase stands, and how many reviews have begun. -/
structure Row where
  planning : PhaseStatus
  implementation : PhaseStatus
  review : PhaseStatus
  finalize : PhaseStatus
  rounds : Nat
  deriving DecidableEq, Repr

/-- What is to be found in a state after a number of failed reviews; there is none while planning. -/
def row (failures : Nat) (state : String) : Option Row :=
  match state with
  | "PlanningActive" =>
    if failures = 0 then some ⟨.inProgress, .pending, .pending, .pending, 0⟩ else none
  | "ImplementationPlanning" | "ImplementationExecuting" =>
    some ⟨.completed, .inProgress, if failures = 0 then .pending else .failed, .pending, failures⟩
  | "ReviewActive" => some ⟨.completed, .completed, .inProgress, .pending, failures + 1⟩
  | "FinalizeDocumentation" | "FinalizeChecks" | "FinalizeDelete" =>
    some ⟨.completed, .completed, .completed, .inProgress, failures + 1⟩
  | "NoProject" => some ⟨.completed, .completed, .completed, .completed, failures + 1⟩
  | _ => none

/-- Phases that stand where a row says. -/
structure Row.Fits (row : Row) (phases : String → Phase) : Prop where
  planning : (phases "planning").status = .proper row.planning
  implementation : (phases "implementation").status = .proper row.implementation
  review : (phases "review").status = .proper row.review
  finalize : (phases "finalize").status = .proper row.finalize
  rounds : (phases "review").iteration = .proper row.rounds

/-- Phases that can go another round: nothing has replaced what only the library changes. -/
structure Sound (phases : String → Phase) : Prop where
  iteration : ∃ n, (phases "implementation").iteration = .proper n
  inputs : ∃ list, (phases "implementation").inputs = .proper list

variable {d edited : Document} {now : Timestamp} {phases : String → Phase} {failures : Nat}

theorem startReviewRound_shows (now : Timestamp) (shows : d.Shows phaseNames phases)
    {status : PhaseStatus} (stands : (phases "review").status = .proper status) {n : Int}
    (counted : (phases "review").iteration = .proper n) :
    ∃ edited r, startReviewRound now d = (.ok (), edited) ∧
      edited.Shows phaseNames (Function.update phases "review" r) ∧
      r.status = .proper (if status = .completed ∨ status = .failed then .inProgress else status) ∧
      r.iteration = .proper (n + 1) := by
  have there := shows "review" (by decide)
  have counts {d : Document} {r : Phase} (there : d.phase "review" = .ok r)
      (same : r.iteration = .proper n) : ∃ iteration, Edit.iteratePhase "review" d =
        (.ok iteration, d.modifyPhase "review" fun _ => { r with iteration := .proper (n + 1) }) :=
    ⟨_, Edit.iteratePhase_eq_ok.mpr ⟨r, _, there, Phase.iterate_proper same, rfl, rfl⟩⟩
  rw [startReviewRound, Attempt.run_bind_ok (Edit.run_phase there), stands]
  by_cases ended : status = .completed ∨ status = .failed
  · have opened := Document.phase_modifyPhase there fun _ => (phases "review").reopen now
    have reopens : Edit.reopenPhase now "review" d = (.ok (), _) := Edit.run_changePhase there rfl
    obtain ⟨iteration, counts⟩ := counts opened counted
    rw [if_pos (by simpa [Slot.holds] using ended), Attempt.run_bind_ok reopens, if_pos ended]
    beta_reduce
    rw [Attempt.run_bind_ok counts, Document.modifyPhase_modifyPhase]
    exact ⟨_, _, rfl, shows.modifyPhase (by decide) _, rfl, rfl⟩
  · obtain ⟨iteration, counts⟩ := counts there counted
    rw [if_neg (by simpa [Slot.holds] using ended), if_neg ended]
    beta_reduce
    rw [Attempt.run_bind_ok counts]
    exact ⟨_, _, rfl, shows.modifyPhase (by decide) _, stands, rfl⟩

/-- What a transition that does nothing on entry makes of the phases. -/
theorem plain_stands (now : Timestamp) {t : Transition} {r : Row}
    (plain : t ∈ [completePlanning, approveTasks, passReview, finishDocumentation, finishChecks,
      finishProject])
    (listed : row failures t.source = some r) (fits : r.Fits phases) (sound : Sound phases) :
    ∃ next, row failures t.target = some next ∧
      next.Fits (Edit.broughtUp now blueprint t.source t phases) ∧
      Sound (Edit.broughtUp now blueprint t.source t phases) := by
  simp only [List.mem_cons, List.not_mem_nil, or_false] at plain
  rcases plain with rfl | rfl | rfl | rfl | rfl | rfl
  · have changed : Edit.broughtUp now blueprint completePlanning.source completePlanning phases =
        Function.update (Function.update phases "planning" ((phases "planning").complete now))
          "implementation" ((phases "implementation").start now) := rfl
    obtain ⟨rfl, rfl⟩ : failures = 0 ∧ r = ⟨.inProgress, .pending, .pending, .pending, 0⟩ := by
      by_cases none : failures = 0
      · refine ⟨none, ?_⟩
        subst none
        exact (Option.some.inj listed).symm
      · rw [show row failures completePlanning.source = _ from if_neg none] at listed
        cases listed
    rw [changed]
    refine ⟨_, rfl, ⟨?_, ?_, ?_, ?_, ?_⟩, ⟨?_, ?_⟩⟩
    all_goals simp [Phase.start_status fits.implementation, Phase.complete_status fits.planning,
      fits.review, fits.finalize, fits.rounds, sound.iteration, sound.inputs]
  · exact ⟨_, listed, fits, sound⟩
  · have changed : Edit.broughtUp now blueprint passReview.source passReview phases =
        Function.update (Function.update phases "review" ((phases "review").complete now))
          "finalize" ((phases "finalize").start now) := rfl
    obtain rfl := (Option.some.inj listed).symm
    rw [changed]
    refine ⟨_, rfl, ⟨?_, ?_, ?_, ?_, ?_⟩, ⟨?_, ?_⟩⟩
    all_goals simp [Phase.start_status fits.finalize, Phase.complete_status fits.review,
      fits.planning, fits.implementation, fits.rounds, sound.iteration, sound.inputs]
  · exact ⟨_, listed, fits, sound⟩
  · exact ⟨_, listed, fits, sound⟩
  · have changed : Edit.broughtUp now blueprint finishProject.source finishProject phases =
        Function.update phases "finalize" ((phases "finalize").complete now) := rfl
    obtain rfl := (Option.some.inj listed).symm
    rw [changed]
    refine ⟨_, rfl, ⟨?_, ?_, ?_, ?_, ?_⟩, ⟨?_, ?_⟩⟩
    all_goals simp [Phase.complete_status fits.finalize, fits.planning, fits.implementation,
      fits.review, fits.rounds, sound.iteration, sound.inputs]

/-- A review that begins, for the first time or again. -/
theorem round_stands (now : Timestamp) {q : Phase} {r : Row}
    (listed : row failures "ImplementationExecuting" = some r) (fits : r.Fits phases) (sound : Sound phases)
    (stands : q.status = .proper
      (if r.review = .completed ∨ r.review = .failed then .inProgress else r.review))
    (counted : q.iteration = .proper (r.rounds + 1)) :
    let begun := Function.update phases "review" q
    ∃ next, row failures "ReviewActive" = some next ∧
      next.Fits (Edit.broughtUp now blueprint "ImplementationExecuting" completeTasks begun) ∧
      Sound (Edit.broughtUp now blueprint "ImplementationExecuting" completeTasks begun) := by
  intro begun
  have changed : Edit.broughtUp now blueprint "ImplementationExecuting" completeTasks begun =
      Function.update (Function.update begun "implementation" ((phases "implementation").complete now))
        "review" (q.start now) := rfl
  obtain rfl := (Option.some.inj listed).symm
  rw [changed]
  refine ⟨_, rfl, ⟨?_, ?_, ?_, ?_, ?_⟩, ⟨?_, ?_⟩⟩
  case refine_3 =>
    by_cases first : failures = 0
    · simp [Phase.start_status stands, first]
    · simp [Phase.start_status stands, first]
  all_goals simp [begun, Phase.complete_status fits.implementation, fits.planning, fits.finalize,
    counted, sound.iteration, sound.inputs]

/-- A review that failed, with the implementation taken up again. -/
theorem rework_stands (now : Timestamp) {q : Phase} {r : Row}
    (listed : row failures "ReviewActive" = some r) (fits : r.Fits phases)
    (stands : q.status = .proper .inProgress) (counted : ∃ n, q.iteration = .proper n)
    (held : ∃ list, q.inputs = .proper list) :
    let again := Function.update phases "implementation" q
    ∃ next, row (failures + 1) "ImplementationPlanning" = some next ∧
      next.Fits (Edit.broughtUp now blueprint "ReviewActive" failReview again) ∧
      Sound (Edit.broughtUp now blueprint "ReviewActive" failReview again) := by
  intro again
  have changed : Edit.broughtUp now blueprint "ReviewActive" failReview again =
      Function.update (Function.update again "review" ((phases "review").fail now)) "implementation"
        (q.start now) := rfl
  obtain rfl := (Option.some.inj listed).symm
  rw [changed]
  refine ⟨_, rfl, ⟨?_, ?_, ?_, ?_, ?_⟩, ⟨?_, ?_⟩⟩
  all_goals simp [again, Phase.start_status stands, Phase.fail, fits.planning, fits.finalize, fits.rounds,
    counted, held]

/-- A project whose phases stand where its state and the number of failed reviews say. -/
def Stands (failures : Nat) (p : Project) : Prop :=
  ∃ r phases, p.machine = .start blueprint p.state ∧ row failures p.state = some r ∧
    p.document.Shows phaseNames phases ∧ r.Fits phases ∧ Sound phases

/-- A review that can be copied, and an implementation to take it up. -/
def Takes (d : Document) (review : Artifact) : Prop :=
  review.toValue.checkCopy = .ok () ∧
    ∃ i m, d.phase "implementation" = .ok i ∧ i.metadata = .proper m

/-- Whether a failed review, if that is what a project goes back from, can be taken along. -/
def Ready (p : Project) : Prop :=
  p.state = "ReviewActive" → ∀ review, Verdict p.document review "fail" → Takes p.document review

section

variable {review : Artifact}

def takes (d : Document) (review : Artifact) : Bool :=
  review.toValue.checkCopy.isOk &&
    match d.phase "implementation" with
    | .ok i => (i.metadata matches .proper _)
    | .error _ => false

theorem takes_iff : takes d review = true ↔ Takes d review := by
  rw [takes, Takes, Bool.and_eq_true]
  refine and_congr ?_ ?_
  · cases review.toValue.checkCopy with
    | error fault => exact ⟨nofun, nofun⟩
    | ok => exact ⟨fun _ => rfl, fun _ => rfl⟩
  · rcases d.phase "implementation" with fault | i
    · constructor
      · nofun
      · rintro ⟨_, _, there, _⟩
        cases there
    · rcases held : i.metadata with m | v
      · simp only [held]
        exact ⟨fun _ => ⟨i, m, rfl, held⟩, fun _ => trivial⟩
      · simp only [held]
        constructor
        · nofun
        · rintro ⟨_, m, same, proper⟩
          obtain rfl := Except.ok.inj same
          cases held.symm.trans proper

/-- The newest review, if it is approved and failed. -/
def failedLatest? (d : Document) : Option Artifact :=
  match latestReview? d with
  | .ok (some review) =>
    match isFailedReview review with
    | .ok true => some review
    | _ => none
  | _ => none

theorem mem_failedLatest?_iff : review ∈ failedLatest? d ↔ Verdict d review "fail" := by
  rw [failedLatest?]
  constructor
  · intro found
    split at found
    · next newest latest =>
        split at found
        · next failed =>
            obtain rfl := Option.some.inj found
            obtain ⟨approved, assessed⟩ := isFailedReview_iff.mp failed
            exact ⟨latest, approved, assessed⟩
        · cases found
    · cases found
  · intro decided
    rw [decided.latest]
    simp only [isFailedReview_iff.mpr ⟨decided.approved, decided.assessed⟩]
    rfl

instance (p : Project) : Decidable (Ready p) :=
  decidable_of_iff
    (p.state = "ReviewActive" → ∀ review ∈ failedLatest? p.document, takes p.document review = true)
    (imp_congr_right fun _ => forall_congr' fun _ => imp_congr mem_failedLatest?_iff takes_iff)

end

variable {p : Project}

/-- What a project that goes back needs, it has. -/
theorem rework_of_takes (now : Timestamp) (stands : Stands failures p) {review : Artifact}
    (decided : Verdict p.document review "fail") (takes : Takes p.document review) :
    ∃ edited, rework now p.document = (.ok (), edited) := by
  obtain ⟨copies, i, m, there, held⟩ := takes
  obtain ⟨r, phases, _, _, shows, _, sound⟩ := stands
  obtain ⟨n, counted⟩ := sound.iteration
  obtain ⟨list, inputs⟩ := sound.inputs
  obtain rfl := Except.ok.inj ((shows "implementation" (by decide)).symm.trans there)
  have beside := shows "review" (by decide)
  refine ⟨_, rework_eq_ok.mpr ⟨_, _, _, review, there, beside, decided.newestFailed beside, copies,
    Phase.reworked_eq_ok.mpr ⟨_, .proper (Keyed.erase m "tasks_approved"),
      .proper (list ++ [.proper review]), Phase.iterate_proper (p := (phases "implementation").reopen now)
        counted, ?_, ?_, rfl⟩, rfl⟩⟩
  · show Slot.takeEntry "tasks_approved" (phases "implementation").metadata = _
    rw [held]
    rfl
  · show Many.add review (phases "implementation").inputs = _
    rw [inputs]
    rfl

/-- A review that decided and was taken along could be. -/
theorem takes_of_rework {review : Artifact} (decided : Verdict d review "fail")
    (done : rework now d = (.ok (), edited)) : Takes d review := by
  obtain ⟨i, q, r, taken, there, beside, found, copies, made, _⟩ := rework_eq_ok.mp done
  obtain rfl := Option.some.inj (Except.ok.inj (found.symm.trans (decided.newestFailed beside)))
  obtain ⟨m, _, held, _⟩ := Phase.reworked_given made
  exact ⟨copies, i, m, there, held⟩

/-- The transitions by what they do on entry; the first of all fires only where there is no project. -/
theorem transition_cases {t : Transition} (member : t ∈ transitions) :
    t = begin ∨ t = completeTasks ∨ t = failReview ∨
      (t ∈ [completePlanning, approveTasks, passReview, finishDocumentation, finishChecks,
        finishProject] ∧ t.event ≠ "review_fail" ∧ ∀ now, entering now t = pure ()) := by
  simp only [transitions, List.mem_cons, List.not_mem_nil, or_false] at member
  rcases member with rfl | rfl | rfl | rfl | rfl | rfl | rfl | rfl | rfl
  · exact .inl rfl
  · exact .inr (.inr (.inr ⟨by simp, by decide, fun _ => rfl⟩))
  · exact .inr (.inr (.inr ⟨by simp, by decide, fun _ => rfl⟩))
  · exact .inr (.inl rfl)
  · exact .inr (.inr (.inl rfl))
  · exact .inr (.inr (.inr ⟨by simp, by decide, fun _ => rfl⟩))
  · exact .inr (.inr (.inr ⟨by simp, by decide, fun _ => rfl⟩))
  · exact .inr (.inr (.inr ⟨by simp, by decide, fun _ => rfl⟩))
  · exact .inr (.inr (.inr ⟨by simp, by decide, fun _ => rfl⟩))

/-- A project that is ready enters the target of the transition that its state asks for, and there its
phases, brought up to date, stand where they should. -/
theorem entering_stands (now : Timestamp) (stands : Stands failures p) (ready : Ready p) {t : Transition}
    (member : t ∈ transitions) (machine : p.machine = .start blueprint t.source)
    (asked : p.eventFor none = .ok t.event) (passed : p.machine.passes p.document t = .ok true) :
    ∃ edited phases next, entering now t p.document = (.ok (), edited) ∧
      edited.Shows phaseNames phases ∧
      row (failures + if t.event = "review_fail" then 1 else 0) t.target = some next ∧
      next.Fits (Edit.broughtUp now blueprint t.source t phases) ∧
      Sound (Edit.broughtUp now blueprint t.source t phases) := by
  have state : p.state = t.source := congrArg Machine.state machine
  have ⟨r, phases, _, listed, shows, fits, sound⟩ := stands
  rw [state] at listed
  rcases transition_cases member with rfl | rfl | rfl | ⟨plain, other, nothing⟩
  · rw [eventFor_none machine] at asked
    cases (determineEvent_ended p.sight).symm.trans asked
  · obtain ⟨edited, q, done, editedShows, status, counted⟩ :=
      startReviewRound_shows now shows fits.review fits.rounds
    obtain ⟨next, nextListed, nextFits, nextSound⟩ :=
      round_stands now listed fits sound status counted
    exact ⟨edited, _, next, done, editedShows, nextListed, nextFits, nextSound⟩
  · obtain ⟨review, latest, approved⟩ :=
      latestReviewApproved_iff.mp ((review_guard (.inl rfl)).mp passed)
    have decided := (eventFor_fail_iff machine latest approved).mp asked
    obtain ⟨edited, done⟩ := rework_of_takes now stands decided (ready state review decided)
    obtain ⟨i, q, _, taken, there, _, _, _, made, rfl⟩ := rework_eq_ok.mp done
    obtain rfl := Except.ok.inj ((shows "implementation" (by decide)).symm.trans there)
    obtain ⟨n, counted⟩ := sound.iteration
    obtain ⟨list, inputs⟩ := sound.inputs
    obtain ⟨status, iteration, inputs⟩ := Phase.reworked_parts made counted inputs
    obtain ⟨next, nextListed, nextFits, nextSound⟩ :=
      rework_stands now listed fits status ⟨_, iteration⟩ ⟨_, inputs⟩
    exact ⟨_, _, next, done, shows.modifyPhase (by decide) q, nextListed, nextFits, nextSound⟩
  · obtain ⟨next, nextListed, nextFits, nextSound⟩ := plain_stands now plain listed fits sound
    refine ⟨p.document, phases, next, ?_, shows, ?_, nextFits, nextSound⟩
    · rw [nothing]
      rfl
    · rw [if_neg other]
      exact nextListed

variable {σ : Type} [Backend σ] {desk : Desk σ} {visits : List Visit}

theorem Stands.touched (stands : Stands failures p) (touched : Touches p.document d) :
    Stands failures { p with document := d } := by
  obtain ⟨r, phases, machine, listed, shows, fits, sound⟩ := stands
  have named (name : String) : ∃ q, (name ∈ phaseNames → d.phase name = .ok q) ∧
      q.status = (phases name).status ∧ q.iteration = (phases name).iteration ∧
      q.inputs = (phases name).inputs := by
    by_cases member : name ∈ phaseNames
    · obtain ⟨outputs, tasks, metadata, there⟩ := touched name _ (shows name member)
      exact ⟨_, fun _ => there, rfl, rfl, rfl⟩
    · exact ⟨phases name, fun here => absurd here member, rfl, rfl, rfl⟩
  choose others editedShows status iteration inputs using named
  refine ⟨r, others, machine, listed, editedShows, ?_, ?_⟩
  · exact {
      planning := (status _).trans fits.planning
      implementation := (status _).trans fits.implementation
      review := (status _).trans fits.review
      finalize := (status _).trans fits.finalize
      rounds := (iteration _).trans fits.rounds }
  · obtain ⟨n, counted⟩ := sound.iteration
    obtain ⟨list, held⟩ := sound.inputs
    exact ⟨⟨n, (iteration _).trans counted⟩, ⟨list, (inputs _).trans held⟩⟩

theorem created_stands {registry : Registry} {r : Request} {archive after : Archive σ}
    (made : Project.create registry now r archive = (.ok p, after)) (standard : p.blueprint = blueprint) :
    Stands 0 p := by
  obtain ⟨machine, fresh, isFresh, shows⟩ := created_shows made standard
  have state : p.state = "PlanningActive" := congrArg Machine.state machine
  refine ⟨⟨.inProgress, .pending, .pending, .pending, 0⟩, _, state ▸ machine, ?_, shows, ?_, ?_⟩
  · rw [state]
    rfl
  · obtain ⟨planned, isPlanned⟩ := isFresh "planning"
    obtain ⟨made, isMade⟩ := isFresh "implementation"
    obtain ⟨reviewed, isReviewed⟩ := isFresh "review"
    obtain ⟨finished, isFinished⟩ := isFresh "finalize"
    refine ⟨?_, ?_, ?_, ?_, ?_⟩
    all_goals simp [isPlanned, isMade, isReviewed, isFinished, Phase.fresh, Phase.start, Slot.holds]
  · obtain ⟨made, isMade⟩ := isFresh "implementation"
    refine ⟨?_, ?_⟩
    all_goals simp [isMade, Phase.fresh, Many.ofList]

/-- A call that is to move a project that is ready leaves the phases where they should stand then, whatever
the call comes to. -/
theorem advance_stands (stands : Stands failures desk.project) (ready : Ready desk.project)
    (now : Timestamp) :
    Stands (failures + if Visit.sentBack ⟨desk.project, now⟩ then 1 else 0)
      (Desk.advance now desk).2.project := by
  have ⟨_, _, machine, _⟩ := stands
  have outcome := advance_outcome machine now
  generalize Desk.advance now desk = result at outcome ⊢
  generalize Visit.sentBack ⟨desk.project, now⟩ = back at outcome ⊢
  cases outcome with
  | refused fault passive => exact stands
  | failed t member machine asked passed cause document entered =>
      obtain ⟨_, _, _, done, _⟩ := entering_stands now stands ready member machine asked passed
      cases entered.symm.trans done
  | moved t member machine asked passed document entered =>
      obtain ⟨edited, phases, next, done, shows, listed, fits, sound⟩ :=
        entering_stands now stands ready member machine asked passed
      obtain rfl := (Prod.mk.inj (entered.symm.trans done)).2
      let moved := desk.withProject
        { desk.project with document, machine := .start blueprint t.target }
      have stays : (Desk.settle now t.source t moved).2.project.machine = .start blueprint t.target :=
        Desk.settle_machine now t.source t moved
      have state : (Desk.settle now t.source t moved).2.project.state = t.target :=
        congrArg Machine.state stays
      refine ⟨next, _, ?_, ?_, (Desk.settle_shows now t.source t moved planned_listed shows).2, fits, sound⟩
      · exact stays.trans (congrArg (Machine.start blueprint) state.symm)
      · refine (congrArg (row _) state).trans ?_
        simp only [decide_eq_true_iff]
        exact listed

/-- No action is to blame if a project that is ready is not moved. -/
theorem advance_passive (innocent : Backend.Innocent σ) (stands : Stands failures desk.project)
    (ready : Ready desk.project) (now : Timestamp) : FailsAs Fault.Passive (Desk.advance now desk).1 := by
  intro fault failed
  have ⟨_, _, machine, _⟩ := stands
  have outcome := advance_outcome machine now
  generalize Desk.advance now desk = result at outcome failed
  generalize Visit.sentBack ⟨desk.project, now⟩ = back at outcome
  cases outcome with
  | refused other passive => exact Except.error.inj failed ▸ passive
  | failed t member machine asked passed cause document entered =>
      obtain ⟨_, _, _, done, _⟩ := entering_stands now stands ready member machine asked passed
      cases entered.symm.trans done
  | moved t member machine asked passed document entered =>
      exact Desk.settle_passive innocent _ _ _ _ fault failed

/-- Where the newest review sends a project back but cannot be taken along, an action is to blame. -/
theorem advance_blames {review : Artifact}
    (machine : desk.project.machine = .start blueprint "ReviewActive")
    (decided : Verdict desk.project.document review "fail")
    (untaken : ¬Takes desk.project.document review) (now : Timestamp) :
    ∃ fault, (Desk.advance now desk).1 = .error fault ∧ fault.isAction = true := by
  have asked := (eventFor_fail_iff machine decided.latest decided.approved).mpr decided
  have passed : desk.project.machine.passes desk.project.document failReview = .ok true :=
    (review_guard (.inl rfl)).mpr
      (latestReviewApproved_iff.mpr ⟨review, decided.latest, decided.approved⟩)
  rw [run_advance (t := failReview) (by simp [transitions]) machine asked passed]
  rcases reworked : entering now failReview desk.project.document with ⟨cause | ⟨⟩, document⟩
  · exact ⟨_, rfl, rfl⟩
  · exact absurd (takes_of_rework decided reworked) untaken

/-- An action is to blame for a call that fails only if a failed review cannot be taken along. -/
theorem advance_blames_iff (innocent : Backend.Innocent σ) (stands : Stands failures desk.project)
    (now : Timestamp) :
    (∃ fault, (Desk.advance now desk).1 = .error fault ∧ fault.isAction = true) ↔
      ¬Ready desk.project := by
  constructor
  · rintro ⟨fault, failed, blamed⟩ ready
    have passive : fault.isAction = false := advance_passive innocent stands ready now fault failed
    rw [passive] at blamed
    cases blamed
  · intro unready
    obtain ⟨_, _, machine, _⟩ := stands
    simp only [Ready, not_forall] at unready
    obtain ⟨state, review, decided, untaken⟩ := unready
    rw [state] at machine
    exact advance_blames machine decided untaken now

/-- As long as every failed review could be taken along, the state and the number of times that the project
was sent back say where each phase stands, whatever was changed in between and whether or not it could be
stored; and an action is to blame for the next call's failure only if a failed review cannot be taken
along. -/
theorem run_stands (run : Run Touches visits desk) (ready : ∀ v ∈ visits, Ready v.project) :
    Stands (visits.countP Visit.sentBack) desk.project ∧
      (Backend.Innocent σ → ∀ now,
        ((∃ fault, (Desk.advance now desk).1 = .error fault ∧ fault.isAction = true) ↔
          ¬Ready desk.project)) := by
  have stands : Stands (visits.countP Visit.sentBack) desk.project := by
    induction run with
    | created made standard => exact created_stands made standard
    | edited run change ih => exact (ih ready).touched change
    | @advanced visits desk now run ih =>
        rw [List.countP_cons]
        exact advance_stands (ih fun v member => ready v (List.mem_cons_of_mem _ member))
          (ready _ List.mem_cons_self) now
  exact ⟨stands, fun innocent now => advance_blames_iff innocent stands now⟩

/-- A project that the same failed review sent back twice. -/
theorem run_stands_twice :
    ∃ (visits : List Visit) (desk : Desk MemoryStore), Run Touches visits desk ∧
      (∀ v ∈ visits, Ready v.project) ∧ desk.project.state = "ImplementationPlanning" ∧
      Stands 2 desk.project ∧
      ∀ now fault, (Desk.advance now desk).1 = .error fault → fault.isAction = false := by
  have reached : reaches blueprint [planned, built, id, reviewedWith failing, built, id, id]
      (fun visits desk => visits.all (fun v => decide (Ready v.project)) ∧
        visits.countP Visit.sentBack = 2 ∧
        desk.project.state = "ImplementationPlanning") = true := by
    rw [blueprint_eq]
    decide +kernel
  obtain ⟨visits, desk, run, passes⟩ := run_of_reaches reached Touches (by
    simp only [List.forall_mem_cons, List.not_mem_nil, false_implies, implies_true, and_true]
    exact ⟨touches_planned, touches_built, touches_id, touches_reviewedWith _, touches_built,
      touches_id, touches_id⟩)
  obtain ⟨ready, twice, state⟩ := of_decide_eq_true passes
  have each (v : Visit) (member : v ∈ visits) : Ready v.project :=
    of_decide_eq_true (List.all_eq_true.mp ready v member)
  obtain ⟨stands, blames⟩ := run_stands run each
  rw [twice] at stands
  refine ⟨visits, desk, run, each, state, stands, ?_⟩
  intro now fault failed
  by_contra blamed
  refine (blames MemoryStore.apart.innocent now).mp ⟨fault, failed, by simpa using blamed⟩ ?_
  intro other
  exact absurd (state.symm.trans other) (by decide)

/-- A failed review that nests deeper than can be copied. -/
def deep : Metadata := ("notes", nested 500) :: failing

/-- An action is to blame where a failed review nests too deeply to be copied. -/
theorem deep_review_blames :
    ∃ (visits : List Visit) (desk : Desk MemoryStore), Run Touches visits desk ∧
      ∃ fault, (Desk.advance newYear desk).1 = .error fault ∧ fault.isAction = true := by
  have reached : reaches blueprint [planned, built, id] (fun _ desk =>
      match (Desk.advance newYear (desk.withDocument (reviewedWith deep desk.project.document))).1 with
      | .error fault => fault.isAction
      | .ok _ => false) = true := by
    rw [blueprint_eq]
    decide +kernel
  obtain ⟨visits, desk, run, passes⟩ := run_of_reaches reached Touches (by
    simp only [List.forall_mem_cons, List.not_mem_nil, false_implies, implies_true, and_true]
    exact ⟨touches_planned, touches_built, touches_id⟩)
  refine ⟨visits, _, run.edited (touches_reviewedWith deep desk.project.document), ?_⟩
  split at passes
  · next fault failed => exact ⟨fault, failed, passes⟩
  · cases passes

end Standard

end Lifecycle
