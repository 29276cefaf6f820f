import Lifecycle.Proofs.Standard.Rounds
import Lifecycle.Proofs.Statuses
/-!
All that comes of moving a project of the standard type by itself out of review. The last review that was
approved says where it is to go, and the last review of all has to be approved, so that it goes only where
these are the same. What it does to the phases on the way is what actions and the update of phases do
together. -/

namespace Lifecycle

/-- Where everything is what belongs there, the newest output that passes a test is the last of those that
do. -/
theorem Phase.newestOutput?_ofList {p : Phase} {outputs : List Artifact} (given : p.outputs = .ofList outputs)
    (type : String) (test : Artifact → Bool) :
    p.newestOutput? type (fun a => .ok (test a)) =
      .ok (outputs.filter fun a => a.type.holds type && test a).getLast? := by
  have both : (fun a : Artifact =>
      if a.type.holds type then (.ok (test a) : Except Fault Bool) else .ok false) =
        fun a => .ok (a.type.holds type && test a) := by
    funext a
    cases a.type.holds type <;> rfl
  rw [newestOutput?, given, both]
  simp only [Many.ofList, Many.elementsBackward, bind, Except.bind]
  rw [← List.map_reverse, Slot.find?_ofList, List.getLast?_eq_head?_reverse, ← List.filter_reverse,
    List.head?_filter]

namespace Edit

/-- What cannot be copied is not, and nothing changes. -/
theorem copyOutput_uncopied {d : Document} {source target type : String}
    {test : Artifact → Except Fault Bool} {origin p : Phase} {a : Artifact} {fault : Fault}
    (beside : d.phase source = .ok origin) (there : d.phase target = .ok p)
    (found : origin.newestOutput? type test = .ok (some a)) (uncopied : a.toValue.checkCopy = .error fault) :
    copyOutput source target type test d = (.error fault, d) := by
  rw [copyOutput, Attempt.run_bind_ok (run_phase beside), Attempt.run_bind_ok (run_phase there),
    Attempt.ofExcept_bind, found]
  simp only
  rw [Attempt.ofExcept_bind, uncopied]

end Edit

/-- Stores a project that has moved, and reports the move. -/
def Desk.report {σ : Type} [Backend σ] (now : Timestamp) (m : Move) : Attempt (Desk σ) Move := do
  persist now m
  return m

theorem Desk.run_report {σ : Type} [Backend σ] (now : Timestamp) (m : Move) (desk : Desk σ) :
    report now m desk =
      (((keep now desk).1.mapError fun fault => fault.afterMove m).map fun _ => m, (keep now desk).2) := by
  rw [report, Attempt.run_bind, persist, Attempt.run_rethrow]
  rcases keep now desk with ⟨fault | ⟨⟩, after⟩
  · rfl
  · rfl

namespace Standard

variable {d : Document} {reviews : List Artifact} {now : Timestamp} {condition : Condition}

def lastReview? (reviews : List Artifact) : Option Artifact :=
  (reviews.filter fun a => a.type.holds "review").getLast?

def lastApproved? (reviews : List Artifact) : Option Artifact :=
  (reviews.filter fun a => a.type.holds "review" && a.isApproved).getLast?

/-- What a review came to, if it says so in a text. -/
def assessment? (review : Artifact) : Option String :=
  match review.metadata with
  | .proper m =>
    match Keyed.find? m "assessment" with
    | some (.text verdict) => some verdict
    | _ => none
  | .stray _ => none

/-- What the last approved review came to. -/
def verdict? (reviews : List Artifact) : Option String := (lastApproved? reviews).bind assessment?

theorem assessment?_eq_some {review : Artifact} {verdict : String}
    (assessed : assessment? review = some verdict) :
    review.metadata.entry "assessment" = .ok (.text verdict) := by
  rw [assessment?] at assessed
  rcases held : review.metadata with m | v
  · rw [held] at assessed
    simp only at assessed
    rw [Slot.entry, Slot.entryOr]
    split at assessed
    · next found =>
        rw [found, ← Option.some.inj assessed]
        rfl
    · cases assessed
  · rw [held] at assessed
    cases assessed

section

variable {review : Phase} {latest : Artifact} (there : d.phase "review" = .ok review)
  (given : review.outputs = .ofList reviews)

include there given

theorem latestReview?_eq : latestReview? d = .ok (lastReview? reviews) := by
  rw [latestReview?, Document.newestOutput?, Document.askPhase_of_phase there,
    Phase.newestOutput?_ofList given, lastReview?]
  simp only [Bool.and_true]

theorem newestApproved_eq : d.newestApprovedOutput? "review" "review" = .ok (lastApproved? reviews) := by
  rw [Document.newestApprovedOutput?, Document.askPhase_of_phase there, Phase.newestOutput?_ofList given,
    lastApproved?]

/-- What decides is what the last approved review came to, and nothing if that does not say. -/
theorem reviewAssessment_eq (typed : d.Typed condition) :
    reviewAssessment d = .ok ((verdict? reviews).getD "") := by
  have each := (typed.phase there).outputs
  rw [given, Many.holds_ofList] at each
  rw [reviewAssessment, newestApproved_eq there given, verdict?]
  simp only [bind, Except.bind]
  rcases last : lastApproved? reviews with _ | a
  · rfl
  · have member : a ∈ reviews := List.mem_of_mem_filter (List.mem_of_getLast? last)
    obtain ⟨m, held, _⟩ := (each a member).metadata.elim
    rw [Option.bind_some, assessment?]
    simp only [Slot.entry, Slot.entryOr, held]
    rcases Keyed.find? m "assessment" with _ | v
    · rfl
    · cases v <;> rfl

variable (last : lastReview? reviews = some latest)

include last

theorem latestReviewApproved_eq : latestReviewApproved d = .ok latest.isApproved := by
  rw [latestReviewApproved, latestReviewApproval, latestReview?_eq there given, last]
  rfl

/-- The last review is the one that decides where it is approved. -/
theorem lastApproved?_of_last (approved : latest.isApproved = true) :
    lastApproved? reviews = some latest := by
  have newest := newestApprovedOutput?_of_latest ((latestReview?_eq there given).trans (congrArg _ last))
    approved
  exact Except.ok.inj ((newestApproved_eq there given).symm.trans newest)

theorem verdict_of_last {verdict : String} (decides : verdict? reviews = some verdict)
    (approved : latest.isApproved = true) : Verdict d latest verdict := by
  rw [verdict?, lastApproved?_of_last there given last approved, Option.bind_some] at decides
  exact ⟨(latestReview?_eq there given).trans (congrArg _ last), approved, assessment?_eq_some decides⟩

end

/-- A review that was approved is a review. -/
theorem lastReview?_isSome {verdict : String} (decides : verdict? reviews = some verdict) :
    ∃ latest, lastReview? reviews = some latest := by
  obtain ⟨a, approved, _⟩ := Option.bind_eq_some_iff.mp decides
  obtain ⟨member, passes⟩ := List.mem_filter.mp (List.mem_of_getLast? approved)
  have listed : a ∈ reviews.filter fun a => a.type.holds "review" :=
    List.mem_filter.mpr ⟨member, (Bool.and_eq_true_iff.mp passes).1⟩
  exact ⟨_, List.getLast?_eq_some_getLast (List.ne_nil_of_mem listed)⟩

theorem determineEvent_unmatched {sight : Sight} {value : String}
    (assessed : reviewAssessment sight.document = .ok value) (unpassed : value ≠ "pass")
    (unfailed : value ≠ "fail") :
    blueprint.determineEvent sight "ReviewActive" =
      .error (.unmatched "ReviewActive" value ["fail", "pass"]) := by
  rw [Blueprint.determineEvent, review_determiner]
  simp only [Determiner.choose, assessed, bind, Except.bind, Keyed.find?, if_neg (Ne.symm unpassed),
    if_neg (Ne.symm unfailed), Keyed.keys, List.map_cons, List.map_nil, sorted_verdicts]
  rfl

section

variable {implementation review : Phase} {latest : Artifact}

/-- A phase taken up again for another iteration, whose tasks are to be approved again. -/
def takenUp (now : Timestamp) (p : Phase) : Phase :=
  { p with
    status := .proper .inProgress
    startedAt := .proper (some now)
    completedAt := .proper none
    failedAt := .proper none
    iteration := p.iteration.map (· + 1)
    metadata := p.metadata.map (Keyed.erase · "tasks_approved") }

/-- Whether a review can be taken along or not, the implementation is taken up first. -/
theorem rework_begins (there : d.phase "implementation" = .ok implementation)
    (typed : implementation.Typed condition) (now : Timestamp) :
    rework now d =
      (do let _ ← Edit.copyOutput "review" "implementation" "review" isFailedReview : Edit Unit)
        (d.modifyPhase "implementation" fun _ => takenUp now implementation) := by
  obtain ⟨n, counted, _⟩ := typed.iteration.elim
  obtain ⟨m, held, _⟩ := typed.metadata.elim
  have opens : Edit.reopenPhase now "implementation" d =
      (.ok (), d.modifyPhase "implementation" fun _ => implementation.reopen now) :=
    Edit.run_changePhase there rfl
  have counts := (Edit.iteratePhase_again_eq_ok there).mpr
    ⟨_, Phase.iterate_proper (p := implementation.reopen now) counted, rfl, rfl⟩
  have takes : Edit.takeMetadata "implementation" "tasks_approved" (d.modifyPhase "implementation" fun _ =>
      { implementation.reopen now with iteration := .proper (n + 1) }) = (.ok (), _) :=
    (Edit.changePhase_again_eq_ok there).mpr ⟨takenUp now implementation, by
      simp only [Phase.reopen, held, Slot.takeEntry, takenUp, counted, Slot.map_proper]
      rfl, rfl⟩
  rw [rework, Attempt.run_bind_ok opens, Attempt.run_bind_ok counts, Attempt.run_bind_ok takes]

theorem review_beside (beside : d.phase "review" = .ok review) (q : Phase) :
    (d.modifyPhase "implementation" fun _ => q).phase "review" = .ok review :=
  (Document.phase_modifyPhase_ne (by decide) _).trans beside

theorem rework_taken (typed : d.Typed condition) (there : d.phase "implementation" = .ok implementation)
    (beside : d.phase "review" = .ok review) (decided : Verdict d latest "fail")
    (copies : latest.toValue.checkCopy = .ok ()) (now : Timestamp) :
    rework now d = (.ok (), d.mapPhases fun name p =>
      if name = "implementation" then
        { takenUp now p with inputs := p.inputs.map (· ++ [.proper latest]) }
      else p) := by
  obtain ⟨inputs, given, _⟩ := (typed.phase there).inputs.elim
  have added : Many.add latest (takenUp now implementation).inputs =
      .ok (implementation.inputs.map (· ++ [.proper latest])) := by
    rw [given, takenUp, given]
    rfl
  have copied := (Edit.copyOutput_again_eq_ok there (by decide)).mpr
    ⟨review, _, beside, decided.newestFailed beside, copies, added, rfl⟩
  rw [rework_begins there (typed.phase there), Attempt.run_bind_ok copied,
    Document.modifyPhase_eq_mapPhases (typed.phases.mono fun _ _ => True.intro) there fun p =>
      { takenUp now p with inputs := p.inputs.map (· ++ [.proper latest]) }]
  rfl

theorem rework_untaken (typed : d.Typed condition) (there : d.phase "implementation" = .ok implementation)
    (beside : d.phase "review" = .ok review) (decided : Verdict d latest "fail") {fault : Fault}
    (uncopied : latest.toValue.checkCopy = .error fault) (now : Timestamp) :
    rework now d = (.error fault, d.mapPhases fun name p =>
      if name = "implementation" then takenUp now p else p) := by
  have failed := Edit.copyOutput_uncopied (review_beside beside _)
    (Document.phase_modifyPhase there fun _ => takenUp now implementation)
    (decided.newestFailed beside) uncopied
  rw [rework_begins there (typed.phase there), Attempt.run_bind, failed,
    Document.modifyPhase_eq_mapPhases (typed.phases.mono fun _ _ => True.intro) there (takenUp now)]

end

/-- Both routes out of review are guarded in the same way. -/
theorem review_route {t : Transition} (route : t = failReview ∨ t = passReview) :
    t ∈ transitions ∧ t.source = "ReviewActive" ∧ "ReviewActive" ≠ t.target ∧
      t.guard = some ⟨"latest review approved", fun sight => latestReviewApproved sight.document⟩ := by
  rcases route with rfl | rfl
  · exact ⟨by simp [transitions], rfl, by decide, rfl⟩
  · exact ⟨by simp [transitions], rfl, by decide, rfl⟩

/-- The phases of a project that goes on. -/
def onward (now : Timestamp) (name : String) (p : Phase) : Phase :=
  if name = "review" then
    if p.status.holds .failed then p
    else { p with status := .proper .completed, completedAt := .proper (some now) }
  else if name = "finalize" ∧ p.status.holds .pending then
    { p with status := .proper .inProgress, startedAt := .proper (some now) }
  else p

/-- The phases of a project that goes back, with the review that sends it there. -/
def back (now : Timestamp) (latest : Artifact) (name : String) (p : Phase) : Phase :=
  if name = "review" then { p with status := .proper .failed, failedAt := .proper (some now) }
  else if name = "implementation" then
    { takenUp now p with inputs := p.inputs.map (· ++ [.proper latest]) }
  else p

theorem distinct_phases : Keyed.Distinct blueprint.phases := by decide

theorem phase?_eq_none {name : String} (unlisted : name ∉ phaseNames) : blueprint.phase? name = none := by
  have names : Keyed.keys blueprint.phases = phaseNames := rfl
  rw [← names, ← Keyed.find?_isSome, Option.not_isSome_iff_eq_none] at unlisted
  exact unlisted

theorem mem_phaseNames {name : String} : name ∈ phaseNames ↔
    name = "planning" ∨ name = "implementation" ∨ name = "review" ∨ name = "finalize" := by
  simp only [phaseNames, List.mem_cons, List.not_mem_nil, or_false]

theorem finalize_declared : blueprint.phase? "finalize" = some {
    PhasePlan.named "finalize" with
    start := some "FinalizeDocumentation", finish := some "FinalizeDelete", schema := some finalizeSchema } :=
  rfl

theorem phaseAfter_passReview (now : Timestamp) (name : String) (p : Phase) :
    blueprint.phaseAfter now "ReviewActive" passReview name p = onward now name p := by
  by_cases listed : name ∈ phaseNames
  · rcases mem_phaseNames.mp listed with rfl | rfl | rfl | rfl
    · rfl
    · rfl
    · rfl
    · rw [Blueprint.phaseAfter, finalize_declared]
      simp [onward, show passReview.target = "FinalizeDocumentation" from rfl]
  · rw [Blueprint.phaseAfter_undeclared (phase?_eq_none listed), onward]
    rw [mem_phaseNames] at listed
    push Not at listed
    obtain ⟨_, _, unreviewed, unfinished⟩ := listed
    rw [if_neg unreviewed, if_neg fun both : _ ∧ _ => unfinished both.1]

/-- What was taken up on the way back has not to be started. -/
theorem phaseAfter_failReview (now : Timestamp) (latest : Artifact) (name : String) (p : Phase) :
    (blueprint.phaseAfter now "ReviewActive" failReview name
      (if name = "implementation" then
        { takenUp now p with inputs := p.inputs.map (· ++ [.proper latest]) }
      else p)) = back now latest name p := by
  by_cases listed : name ∈ phaseNames
  · rcases mem_phaseNames.mp listed with rfl | rfl | rfl | rfl <;> rfl
  · rw [Blueprint.phaseAfter_undeclared (phase?_eq_none listed), back]
    rw [mem_phaseNames] at listed
    push Not at listed
    obtain ⟨_, _, unreviewed, _⟩ := listed
    rw [if_neg unreviewed]

section

variable {σ : Type} [Backend σ] {desk : Desk σ} {phases : String → Phase}

/-- A call moves a project along a transition with a change of its phases; what remains is to store it, and
whatever comes of that, so the project stands. -/
structure Moves (now : Timestamp) (t : Transition) (change : String → Phase → Phase) (desk : Desk σ) :
    Prop where
  call : Desk.advance now desk = Desk.report now (t.move "ReviewActive") (desk.withProject {
    desk.project with
    document := desk.project.document.mapPhases change, machine := .start blueprint t.target })
  machine : (Desk.advance now desk).2.project.machine = .start blueprint t.target
  phases : (Desk.advance now desk).2.project.document.phases =
    (desk.project.document.mapPhases change).phases

theorem Moves.of_call {t : Transition} {change : String → Phase → Phase}
    (call : Desk.advance now desk = Desk.report now (t.move "ReviewActive") (desk.withProject {
      desk.project with
      document := desk.project.document.mapPhases change, machine := .start blueprint t.target })) :
    Moves now t change desk := by
  refine ⟨call, ?_, ?_⟩
  · rw [call, Desk.run_report]
    exact Desk.keep_machine now _
  · rw [call, Desk.run_report]
    exact Desk.keep_phases now _

/-- A route out of review whose guard passes moves the project if what it does on entry does not fail. -/
theorem moves_of_entering {t : Transition} (route : t = failReview ∨ t = passReview)
    (machine : desk.project.machine = .start blueprint "ReviewActive")
    (typed : desk.project.document.Typed condition) (asked : desk.project.eventFor none = .ok t.event)
    (approved : latestReviewApproved desk.project.document = .ok true)
    {entry change : String → Phase → Phase}
    (entered : entering now t desk.project.document = (.ok (), desk.project.document.mapPhases entry))
    (after : ∀ name p, blueprint.phaseAfter now "ReviewActive" t name (entry name p) = change name p) :
    Moves now t change desk := by
  obtain ⟨member, source, moves, _⟩ := review_route route
  have there : desk.project.document.phases.Holds fun _ => True := typed.phases.mono fun _ _ => True.intro
  have settled (gone : Desk σ) (machine : gone.project.machine = .start blueprint t.target)
      (entered : gone.project.document = desk.project.document.mapPhases entry) :
      Desk.settle now "ReviewActive" t gone =
        Desk.report now (t.move "ReviewActive")
          (gone.withDocument (desk.project.document.mapPhases change)) := by
    have type : gone.project.blueprint = blueprint := congrArg Machine.blueprint machine
    rw [Desk.settle_eq (type ▸ distinct_phases) (entered ▸ Document.mapPhases_there there entry) moves,
      Desk.run_report, entered, type, Document.mapPhases_mapPhases, Document.mapPhases_congr after]
  apply Moves.of_call
  rw [run_advance member (source ▸ machine) asked ((review_guard route).mpr approved), entered, source]
  exact settled (desk.withProject _) rfl rfl

/-- Where no approved review says that it passed or failed, no event is found. -/
theorem advance_unmatched {value : String} (machine : desk.project.machine = .start blueprint "ReviewActive")
    (assessed : reviewAssessment desk.project.document = .ok value) (unpassed : value ≠ "pass")
    (unfailed : value ≠ "fail") (now : Timestamp) :
    Desk.advance now desk = (.error (.unmatched "ReviewActive" value ["fail", "pass"]), desk) := by
  rw [show Desk.advance now desk = _ from Desk.run_proceed now none desk, eventFor_none machine,
    determineEvent_unmatched assessed unpassed unfailed]

/-- A call finds the way, and the guard closes it. -/
def Blocked (now : Timestamp) (t : Transition) (desk : Desk σ) : Prop :=
  Desk.advance now desk =
    (.error (.blocked ⟨"ReviewActive", t.target, t.event⟩ "latest review approved"), desk)

theorem blocked_of_unapproved {t : Transition} (route : t = failReview ∨ t = passReview)
    (machine : desk.project.machine = .start blueprint "ReviewActive")
    (asked : desk.project.eventFor none = .ok t.event)
    (unapproved : latestReviewApproved desk.project.document = .ok false) (now : Timestamp) :
    Blocked now t desk := by
  obtain ⟨member, source, _, guard⟩ := review_route route
  have declared : desk.project.machine.transition t.event = .ok t := by
    rw [machine]
    exact transition_eq_ok.mpr ⟨member, source, rfl⟩
  have closed : desk.project.machine.passes desk.project.document t = .ok false := by
    simp only [Machine.passes, guard, Machine.sight, unapproved]
  have reason : t.blockReason = "latest review approved" := by
    simp only [Transition.blockReason, Transition.guardDescription, guard]
    rfl
  have arrow : desk.project.machine.arrow t = ⟨"ReviewActive", t.target, t.event⟩ := by
    rw [machine]
    rfl
  rw [Blocked, show Desk.advance now desk = _ from Desk.run_proceed now none desk, asked]
  simp only [Desk.run_fire]
  rw [Project.run_fire, declared]
  simp only [closed, reason, arrow]
  rfl

/-- A review that failed and cannot be copied leaves the project where it is, its implementation taken up. -/
theorem advance_untaken {implementation review : Phase} {latest : Artifact} {cause : Fault}
    (machine : desk.project.machine = .start blueprint "ReviewActive")
    (typed : desk.project.document.Typed condition)
    (there : desk.project.document.phase "implementation" = .ok implementation)
    (beside : desk.project.document.phase "review" = .ok review)
    (decided : Verdict desk.project.document latest "fail")
    (uncopied : latest.toValue.checkCopy = .error cause) (now : Timestamp) :
    Desk.advance now desk =
      (.error (.entryAction ⟨"ReviewActive", "ImplementationPlanning", "review_fail"⟩ cause),
        desk.withDocument (desk.project.document.mapPhases fun name p =>
          if name = "implementation" then takenUp now p else p)) := by
  have asked := (eventFor_fail_iff machine decided.latest decided.approved).mpr decided
  have passed : desk.project.machine.passes desk.project.document failReview = .ok true :=
    (review_guard (.inl rfl)).mpr
      (latestReviewApproved_iff.mpr ⟨latest, decided.latest, decided.approved⟩)
  have arrow : desk.project.machine.arrow failReview =
      ⟨"ReviewActive", "ImplementationPlanning", "review_fail"⟩ := by
    rw [machine]
    rfl
  rw [run_advance (t := failReview) (by simp [transitions]) machine asked passed,
    show entering now failReview = rework now from rfl,
    rework_untaken typed there beside decided uncopied, arrow]

/-- All that comes of a call that is to move a project by itself out of review. It goes on or back by what the
last approved review says, if that is the last of all; where the last of all is not approved it is kept from
it, and where none that is approved says so it finds no way. It goes back only if the review that sends it
there can be copied; if not, it stays, its implementation taken up without it. -/
theorem leaves_review (machine : desk.project.machine = .start blueprint "ReviewActive")
    (typed : desk.project.document.Typed condition) (shows : desk.project.document.Shows phaseNames phases)
    (given : (phases "review").outputs = .ofList reviews) (now : Timestamp) :
    (verdict? reviews ≠ some "pass" → verdict? reviews ≠ some "fail" →
      Desk.advance now desk =
        (.error (.unmatched "ReviewActive" ((verdict? reviews).getD "") ["fail", "pass"]), desk)) ∧
    (verdict? reviews = some "pass" → ∃ latest, lastReview? reviews = some latest ∧
      (latest.isApproved = false → Blocked now passReview desk) ∧
      (latest.isApproved = true → lastApproved? reviews = some latest ∧
        Moves now passReview (onward now) desk)) ∧
    (verdict? reviews = some "fail" → ∃ latest, lastReview? reviews = some latest ∧
      (latest.isApproved = false → Blocked now failReview desk) ∧
      (latest.isApproved = true → lastApproved? reviews = some latest ∧
        (latest.toValue.checkCopy = .ok () → Moves now failReview (back now latest) desk) ∧
        ∀ cause, latest.toValue.checkCopy = .error cause →
          Desk.advance now desk =
            (.error (.entryAction ⟨"ReviewActive", "ImplementationPlanning", "review_fail"⟩ cause),
              desk.withDocument (desk.project.document.mapPhases fun name p =>
                if name = "implementation" then takenUp now p else p)))) := by
  have there := shows "implementation" (by decide)
  have beside := shows "review" (by decide)
  have assessed := reviewAssessment_eq beside given typed
  refine ⟨?_, ?_, ?_⟩
  · intro unpassed unfailed
    have other (verdict : String) (named : verdict ≠ "") (different : verdict? reviews ≠ some verdict) :
        (verdict? reviews).getD "" ≠ verdict := by
      cases decides : verdict? reviews with
      | none => exact Ne.symm named
      | some value => exact fun same => different (decides.trans (congrArg some same))
    exact advance_unmatched machine assessed (other "pass" (by decide) unpassed)
      (other "fail" (by decide) unfailed) now
  · intro decides
    rw [decides] at assessed
    have asked : desk.project.eventFor none = .ok passReview.event :=
      (eventFor_none machine).trans (determineEvent_review.mpr (.inl ⟨rfl, assessed⟩))
    obtain ⟨latest, last⟩ := lastReview?_isSome decides
    have guarded := latestReviewApproved_eq beside given last
    refine ⟨latest, last, ?_, ?_⟩
    · intro unapproved
      rw [unapproved] at guarded
      exact blocked_of_unapproved (.inr rfl) machine asked guarded now
    · intro approved
      rw [approved] at guarded
      refine ⟨lastApproved?_of_last beside given last approved, ?_⟩
      -- Going on does nothing of its own, so that only the update of phases is left.
      have unchanged : entering now passReview desk.project.document =
          (.ok (), desk.project.document.mapPhases fun _ p => p) := by
        rw [Document.mapPhases_same (typed.phases.mono fun _ _ => True.intro) fun _ _ _ => rfl]
        rfl
      exact moves_of_entering (.inr rfl) machine typed asked guarded unchanged (phaseAfter_passReview now)
  · intro decides
    rw [decides] at assessed
    have asked : desk.project.eventFor none = .ok failReview.event :=
      (eventFor_none machine).trans (determineEvent_review.mpr (.inr ⟨rfl, assessed⟩))
    obtain ⟨latest, last⟩ := lastReview?_isSome decides
    have guarded := latestReviewApproved_eq beside given last
    refine ⟨latest, last, ?_, ?_⟩
    · intro unapproved
      rw [unapproved] at guarded
      exact blocked_of_unapproved (.inl rfl) machine asked guarded now
    · intro approved
      rw [approved] at guarded
      have decided := verdict_of_last beside given last decides approved
      refine ⟨lastApproved?_of_last beside given last approved, ?_, ?_⟩
      · intro copies
        have entered : entering now failReview desk.project.document = _ :=
          rework_taken typed there beside decided copies now
        exact moves_of_entering (.inl rfl) machine typed asked guarded entered
          (phaseAfter_failReview now latest)
      · exact fun cause uncopied => advance_untaken machine typed there beside decided uncopied now

end

/-- A review that was approved, and what it says. -/
def approvedReview (metadata : Metadata) : Artifact :=
  ⟨.proper "review", .proper "review.md", .proper true, .proper newYear, .proper metadata⟩

theorem approvedReview_typed (metadata : Metadata) :
    (approvedReview metadata).Typed fun _ _ => True :=
  ⟨True.intro, True.intro, True.intro, newYear_proper, True.intro⟩

/-- The phases of a project in review. -/
def reviewPhases (reviews : List Artifact) : List (String × Phase) := [
  ("planning", { Phase.fresh newYear [] with status := .proper .completed }),
  ("implementation", { Phase.fresh newYear [] with status := .proper .completed }),
  ("review", { Phase.fresh newYear [] with status := .proper .inProgress, outputs := .ofList reviews }),
  ("finalize", Phase.fresh newYear [])]

def inReview (reviews : List Artifact) : Desk MemoryStore :=
  ⟨.start blueprint { Document.sample [] with phases := .ofEntries (reviewPhases reviews) } "ReviewActive",
    ⟨⟨none, 0⟩, []⟩⟩

theorem inReview_typed {reviews : List Artifact} (typed : ∀ a ∈ reviews, a.Typed fun _ _ => True) :
    (inReview reviews).project.document.Typed fun _ _ => True := by
  have fresh : (Phase.fresh newYear []).Typed fun _ _ => True :=
    Phase.fresh_typed newYear_proper (fun _ member => absurd member List.not_mem_nil) True.intro
  have sample : (Document.sample []).Typed fun _ _ => True := Document.sample_typed True.intro
  have names : Keyed.keys (reviewPhases reviews) = phaseNames := rfl
  have distinct : Keyed.Distinct (reviewPhases reviews) := by
    rw [Keyed.Distinct, names]
    decide
  refine { sample with phases := Table.holds_ofEntries.mpr ⟨distinct, ?_⟩ }
  simp only [reviewPhases, List.forall_mem_cons]
  exact ⟨{ fresh with status := True.intro }, { fresh with status := True.intro },
    { fresh with status := True.intro, outputs := Many.holds_ofList.mpr typed }, fresh,
    List.forall_mem_nil _⟩

/-- The phase of that name of a project in review. -/
def reviewPhase (reviews : List Artifact) (name : String) : Phase :=
  (Keyed.find? (reviewPhases reviews) name).getD (.fresh newYear [])

theorem inReview_shows (reviews : List Artifact) :
    (inReview reviews).project.document.Shows phaseNames (reviewPhase reviews) := by
  intro name member
  rcases mem_phaseNames.mp member with rfl | rfl | rfl | rfl <;> rfl

/-- A project that a failed review sends back, and one that a review which says nothing keeps. -/
theorem leaves_inReview :
    Moves newYear failReview (back newYear (approvedReview failing)) (inReview [approvedReview failing]) ∧
      Desk.advance newYear (inReview [approvedReview failing, approvedReview []]) =
        (.error (.unmatched "ReviewActive" "" ["fail", "pass"]),
          inReview [approvedReview failing, approvedReview []]) := by
  constructor
  · have typed := inReview_typed (List.forall_mem_singleton.mpr (approvedReview_typed failing))
    obtain ⟨_, _, fails⟩ := leaves_review rfl typed (inReview_shows _) rfl newYear
    obtain ⟨latest, last, _, goes⟩ := fails rfl
    obtain rfl : approvedReview failing = latest := Option.some.inj last
    obtain ⟨_, goes, _⟩ := goes rfl
    exact goes (by rw [Value.checkCopy, if_pos (by decide +kernel)])
  · have typed := inReview_typed (List.forall_mem_cons.mpr
      ⟨approvedReview_typed failing, List.forall_mem_singleton.mpr (approvedReview_typed [])⟩)
    obtain ⟨silent, _⟩ := leaves_review rfl typed (inReview_shows _) rfl newYear
    exact silent (by decide) (by decide)

/-- A project stays in review although the last review, which is approved, failed: that nests too deeply to be
copied. -/
theorem deep_review_stays :
    (inReview [approvedReview deep]).project.machine = .start blueprint "ReviewActive" ∧
      (inReview [approvedReview deep]).project.document.Typed (fun _ _ => True) ∧
      (inReview [approvedReview deep]).project.document.Shows phaseNames
        (reviewPhase [approvedReview deep]) ∧
      (reviewPhase [approvedReview deep] "review").outputs = .ofList [approvedReview deep] ∧
      lastReview? [approvedReview deep] = some (approvedReview deep) ∧
      lastApproved? [approvedReview deep] = some (approvedReview deep) ∧
      verdict? [approvedReview deep] = some "fail" ∧
      (Desk.advance newYear (inReview [approvedReview deep])).1 =
        .error (.entryAction ⟨"ReviewActive", "ImplementationPlanning", "review_fail"⟩ .tooManySteps) ∧
      (Desk.advance newYear (inReview [approvedReview deep])).2.project.machine =
        .start blueprint "ReviewActive" := by
  have typed := inReview_typed (List.forall_mem_singleton.mpr (approvedReview_typed deep))
  have shows := inReview_shows [approvedReview deep]
  have beside := shows "review" (by decide)
  have uncopied : (approvedReview deep).toValue.checkCopy = .error .tooManySteps := by
    rw [Value.checkCopy, if_neg (by decide +kernel)]
  have decided : Verdict (inReview [approvedReview deep]).project.document (approvedReview deep) "fail" :=
    verdict_of_last beside rfl rfl rfl rfl
  have stays := advance_untaken rfl typed (shows "implementation" (by decide)) beside decided uncopied newYear
  refine ⟨rfl, typed, shows, rfl, rfl, rfl, rfl, ?_, ?_⟩
  · rw [stays]
  · rw [stays]
    rfl

end Standard

end Lifecycle
