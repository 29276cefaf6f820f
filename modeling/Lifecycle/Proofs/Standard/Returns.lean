import Lifecycle.Proofs.Standard.Visits
/-!
Which review sends a project back. It is the newest one every time, and that is another one than before if
and only if a review was added since; nothing marks a review as used. -/

namespace Lifecycle

open Attempt (Leaves)

namespace Edit

/-- A list of artifacts looked up in a phase. -/
abbrev look (part : Phase → Many Artifact) (name : String) (d : Document) :
    Except Fault (Many Artifact) := d.askPhase name .none fun p => .ok (part p)

variable {part : Phase → Many Artifact} {name other : String} {now : Timestamp}

theorem changePhase_leaves {change : Phase → Except Fault Phase}
    (keeps : ∀ p q, change p = .ok q → part q = part p) :
    Leaves (look part other) (changePhase name change) := by
  intro d
  rcases done : changePhase name change d with ⟨fault | ⟨⟩, edited⟩
  · rw [changePhase_error done]
  · obtain ⟨p, q, there, changed, rfl⟩ := changePhase_eq_ok.mp done
    by_cases same : name = other
    · subst same
      rw [look, look, Document.askPhase_of_phase there,
        Document.askPhase_of_phase (Document.phase_modifyPhase there _), keeps p q changed]
    · rw [look, look, Document.askPhase, Document.askPhase, Document.phase?_modifyPhase_ne same]

theorem whereThere_leaves {edit : String → Edit Unit} (each : ∀ name, Leaves (look part other) (edit name))
    (names : List String) : Leaves (look part other) (whereThere edit names) := by
  refine Leaves.forM (fun name => ?_) names
  refine Attempt.leaves_get.bind fun d => (Attempt.leaves_ofExcept _).bind fun _ => ?_
  exact Attempt.leaves_ite (each name) (Attempt.leaves_pure _)

/-- A part of phases that does not change with where they stand. -/
structure Lasting (part : Phase → Many Artifact) : Prop where
  start : ∀ p now, part (p.start now) = part p
  complete : ∀ p now, part (p.complete now) = part p
  fail : ∀ p now, part (p.fail now) = part p

theorem lasting_inputs : Lasting Phase.inputs :=
  ⟨fun _ _ => Phase.start_inputs, fun _ _ => Phase.complete_inputs, fun _ _ => rfl⟩

theorem lasting_outputs : Lasting Phase.outputs :=
  ⟨fun _ _ => Phase.start_outputs, fun _ _ => Phase.complete_outputs, fun _ _ => rfl⟩

/-- Bringing phases up to date changes only where they stand. -/
theorem afterTransition_leaves (now : Timestamp) (other : String) (lasting : Lasting part)
    (b : Blueprint) (source : String) (t : Transition) :
    Leaves (look part other) (afterTransition now b source t) := by
  have ends (name : String) : Leaves (look part other) (finishPhase now t.failedPhase name) := by
    rw [finishPhase]
    split
    · refine changePhase_leaves fun p q changed => ?_
      cases changed
      exact lasting.fail p now
    · refine changePhase_leaves fun p q changed => ?_
      cases changed
      exact lasting.complete p now
  have starts (name : String) : Leaves (look part other) (startPhase now name) := by
    refine changePhase_leaves fun p q changed => ?_
    cases changed
    exact lasting.start p now
  refine Attempt.leaves_ite ?_ (Attempt.leaves_pure _)
  exact (whereThere_leaves ends _).bind fun _ => whereThere_leaves starts _

end Edit

namespace Standard

open Edit (look)

variable {now : Timestamp} {name : String}

theorem reopenPhase_leaves (phase : String) :
    Leaves (look Phase.outputs name) (Edit.reopenPhase now phase) := by
  refine Edit.changePhase_leaves fun p q changed => ?_
  cases changed
  rfl

theorem iteratePhase_leaves (phase : String) :
    Leaves (look Phase.outputs name) (Edit.iteratePhase phase) := by
  refine Leaves.bind (Edit.changePhase_leaves fun p q changed => ?_) fun _ =>
    Leaves.bind (fun _ => rfl) fun _ => Attempt.leaves_pure _
  obtain ⟨_, _, same⟩ := Except.bind_eq_ok.mp changed
  cases same
  rfl

theorem startReviewRound_leaves : Leaves (look Phase.outputs name) (startReviewRound now) := by
  have counts : Leaves (look Phase.outputs name) (do let _ ← Edit.iteratePhase "review" : Edit Unit) :=
    (iteratePhase_leaves _).bind fun _ => Attempt.leaves_pure _
  refine Leaves.bind (fun _ => rfl) fun review => ?_
  exact Attempt.leaves_ite ((reopenPhase_leaves _).bind fun _ => counts) counts

theorem rework_leaves : Leaves (look Phase.outputs name) (rework now) := by
  refine (reopenPhase_leaves _).bind fun _ => (iteratePhase_leaves _).bind fun _ => ?_
  refine Leaves.bind (Edit.changePhase_leaves fun p q changed => ?_) fun _ => Leaves.bind ?_ fun _ =>
    Attempt.leaves_pure _
  · obtain ⟨_, _, same⟩ := Except.bind_eq_ok.mp changed
    cases same
    rfl
  · refine Leaves.bind (fun _ => rfl) fun origin => Leaves.bind (fun _ => rfl) fun _ => ?_
    refine (Attempt.leaves_ofExcept _).bind fun found => ?_
    cases found with
    | none => exact Attempt.leaves_throw _
    | some a =>
        refine (Attempt.leaves_ofExcept _).bind fun _ => ?_
        refine Leaves.bind (Edit.changePhase_leaves fun p q changed => ?_) fun _ =>
          Attempt.leaves_pure _
        obtain ⟨_, _, same⟩ := Except.bind_eq_ok.mp changed
        cases same
        rfl

/-- What transitions do on entry leaves the outputs of all phases alone, even where it fails. -/
theorem entering_leaves (now : Timestamp) (name : String) (t : Transition) :
    Leaves (look Phase.outputs name) (entering now t) := by
  rw [entering]
  split
  · exact startReviewRound_leaves
  · exact rework_leaves
  · exact Attempt.leaves_pure _

variable {σ : Type} [Backend σ] {desk : Desk σ} {visits : List Visit}

theorem settle_leaves {part : Phase → Many Artifact} (lasting : Edit.Lasting part) (source : String)
    (t : Transition) (desk : Desk σ) :
    look part name (Desk.settle now source t desk).2.project.document =
      look part name desk.project.document := by
  have brought := Edit.afterTransition_leaves now name lasting
    desk.project.blueprint source t desk.project.document
  rw [Desk.settle]
  rcases edited : Edit.afterTransition now desk.project.blueprint source t desk.project.document with
    ⟨fault | ⟨⟩, document⟩
  all_goals rw [edited] at brought
  · exact brought
  · have kept := Desk.keep_phases now (desk.withDocument document)
    have same : look part name (Desk.keep now (desk.withDocument document)).2.project.document =
        look part name document := by
      rw [look, look, Document.askPhase, Document.askPhase, Document.phase?, Document.phase?, kept]
      rfl
    simp only
    rcases kept : Desk.keep now (desk.withDocument document) with ⟨fault | ⟨⟩, after⟩
    · rw [kept] at same
      exact same.trans brought
    · rw [kept] at same
      exact same.trans brought

/-- A call that is to move a project leaves the outputs of its phases alone. -/
theorem advance_leaves {state : String} (machine : desk.project.machine = .start blueprint state)
    (now : Timestamp) : look Phase.outputs name (Desk.advance now desk).2.project.document =
      look Phase.outputs name desk.project.document := by
  have outcome := advance_outcome machine now
  generalize Desk.advance now desk = result at outcome ⊢
  generalize Visit.sentBack ⟨desk.project, now⟩ = back at outcome
  cases outcome with
  | refused fault passive => rfl
  | failed t member machine asked passed cause document entered =>
      have same := entering_leaves now name t desk.project.document
      rw [entered] at same
      exact same
  | moved t member machine asked passed document entered =>
      have same := entering_leaves now name t desk.project.document
      rw [entered] at same
      exact (settle_leaves Edit.lasting_outputs _ _ _).trans same

/-- What a caller may do who only adds reviews: what else was there in the outputs of the review phase
stays. -/
def Appends (d edited : Document) : Prop :=
  Touches d edited ∧ ∀ outputs, outputsOf "review" d = .ok (.proper outputs) →
    ∃ more, outputsOf "review" edited = .ok (.proper (outputs ++ more))

/-- Over a run the outputs of the review phase only grow. -/
theorem run_outputs (run : Run Appends visits desk) :
    ∃ outputs, outputsOf "review" desk.project.document = .ok (.proper outputs) ∧
      ∀ v ∈ visits, ∃ old, outputsOf "review" v.project.document = .ok (.proper old) ∧
        old <+: outputs := by
  induction run with
  | created made standard =>
      obtain ⟨_, fresh, isFresh, shows⟩ := created_shows made standard
      obtain ⟨artifacts, same⟩ := isFresh "review"
      refine ⟨[], ?_, fun v member => absurd member List.not_mem_nil⟩
      have there := shows "review" (by decide)
      rw [Function.update_of_ne (by decide), same] at there
      exact Document.askPhase_of_phase there _ _
  | edited run change ih =>
      obtain ⟨outputs, given, earlier⟩ := ih
      obtain ⟨more, grown⟩ := change.2 outputs given
      refine ⟨outputs ++ more, grown, ?_⟩
      intro v member
      obtain ⟨old, there, grown⟩ := earlier v member
      exact ⟨old, there, grown.trans (List.prefix_append outputs more)⟩
  | @advanced visits desk now run ih =>
      obtain ⟨outputs, given, earlier⟩ := ih
      obtain ⟨state, machine⟩ := run.machine
      refine ⟨outputs, (advance_leaves machine now).trans given, ?_⟩
      rintro v (_ | ⟨_, member⟩)
      · exact ⟨outputs, given, List.prefix_rfl⟩
      · exact earlier v member

theorem Run.visit_machine {edits : Document → Document → Prop} (run : Run edits visits desk) :
    ∀ v ∈ visits, ∃ state, v.project.machine = .start blueprint state := by
  induction run with
  | created made standard => exact fun v member => absurd member List.not_mem_nil
  | edited run change ih => exact ih
  | @advanced visits desk now run ih =>
      rintro v (_ | ⟨_, member⟩)
      · exact run.machine
      · exact ih v member

/-- What a project goes back by: the newest of its reviews, which is approved and failed. -/
structure GoesBackBy (d : Document) (outputs older : List (Slot Artifact)) (review : Artifact)
    (newer : List (Slot Artifact)) : Prop where
  given : outputsOf "review" d = .ok (.proper outputs)
  newest : Artifact.IsNewest "review" (fun _ => .ok true) outputs older review newer
  decided : Verdict d review "fail"

theorem eq_failReview {t : Transition} (member : t ∈ transitions) (event : t.event = "review_fail") :
    t = failReview := by
  simp only [transitions, List.mem_cons, List.not_mem_nil, or_false] at member
  rcases member with rfl | rfl | rfl | rfl | rfl | rfl | rfl | rfl | rfl
  all_goals first | exact absurd event (by decide) | rfl

/-- A call that sends a project back, with the review that it goes back by among the inputs of the
implementation afterwards. -/
theorem goesBackBy_of_sentBack (desk : Desk σ) {state : String}
    (machine : desk.project.machine = .start blueprint state)
    (back : Visit.sentBack ⟨desk.project, now⟩ = true) :
    ∃ outputs older review newer inputs,
      GoesBackBy desk.project.document outputs older review newer ∧
      inputsOf "implementation" desk.project.document = .ok (.proper inputs) ∧
      inputsOf "implementation" (Desk.advance now desk).2.project.document =
        .ok (.proper (inputs ++ [.proper review])) := by
  have outcome := advance_outcome machine now
  generalize Desk.advance now desk = result at outcome ⊢
  generalize Visit.sentBack ⟨desk.project, now⟩ = sent at outcome back
  cases outcome with
  | refused fault passive => cases back
  | failed t member machine asked passed cause document entered => cases back
  | moved t member machine asked passed document entered =>
      obtain rfl := eq_failReview member (of_decide_eq_true back)
      obtain ⟨review, latest, approved⟩ :=
        latestReviewApproved_iff.mp ((review_guard (.inl rfl)).mp passed)
      have decided := (eventFor_fail_iff machine latest approved).mp asked
      obtain ⟨i, last, r, taken, there, beside, found, _, made, rfl⟩ := rework_eq_ok.mp entered
      obtain rfl : taken = review :=
        Option.some.inj (Except.ok.inj (found.symm.trans (decided.newestFailed beside)))
      rw [latestReview?, Document.newestOutput?, Document.askPhase_of_phase beside] at latest
      obtain ⟨outputs, older, newer, held, newest⟩ := Phase.newestOutput?_eq_some_iff.mp latest
      obtain ⟨_, inputs, _, before, after⟩ := Phase.reworked_given made
      refine ⟨outputs, older, taken, newer, inputs, ⟨?_, newest, decided⟩, ?_, ?_⟩
      · rw [outputsOf, Document.askPhase_of_phase beside, held]
      · rw [inputsOf, Document.askPhase_of_phase there, before]
      · refine (settle_leaves Edit.lasting_inputs _ _ _).trans ?_
        exact (Document.askPhase_of_phase (Document.phase_modifyPhase there _) _ _).trans
          (congrArg Except.ok after)

/-- There is a review among the artifacts. -/
def HoldsReview (artifacts : List (Slot Artifact)) : Prop :=
  ∃ review, Slot.proper review ∈ artifacts ∧ review.type.holds "review" = true

/-- What a project goes back by after it went back before: if a review was added since, one that was, and
else the same one again. -/
structure Succeeds (old before : List (Slot Artifact)) (first : Artifact)
    (outputs older : List (Slot Artifact)) (review : Artifact) : Prop where
  grown : old <+: outputs
  other : HoldsReview (outputs.drop old.length) → old.length ≤ older.length
  same : ¬HoldsReview (outputs.drop old.length) → older = before ∧ review = first

theorem GoesBackBy.succeeds {d earlier : Document} {outputs older newer old before after :
    List (Slot Artifact)} {review first : Artifact} (goes : GoesBackBy d outputs older review newer)
    (went : GoesBackBy earlier old before first after) (grown : old <+: outputs) :
    Succeeds old before first outputs older review := by
  obtain ⟨more, rfl⟩ := grown
  have newest := goes.newest
  have added : (old ++ more).drop old.length = more := List.drop_left
  refine ⟨List.prefix_append old more, ?_, ?_⟩
  · rw [added]
    rintro ⟨review, member, fits⟩
    exact newest.length_le_of_append member fits rfl
  · rw [added]
    intro none
    have without (a : Artifact) (member : Slot.proper a ∈ more)
        (fits : a.type.holds "review" = true) : (.ok true : Except Fault Bool) = .ok false :=
      absurd ⟨a, member, fits⟩ none
    obtain ⟨rfl, rfl⟩ := newest.eq_of_append went.newest without
    exact ⟨rfl, rfl⟩

/-- An earlier review that a project went back by, beside the one that it goes back by. -/
theorem earlier_return (run : Run Appends visits desk) {v : Visit} (member : v ∈ visits)
    (went : v.sentBack = true) {outputs older newer : List (Slot Artifact)} {review : Artifact}
    (goes : GoesBackBy desk.project.document outputs older review newer) :
    ∃ old before first after, GoesBackBy v.project.document old before first after ∧
      Succeeds old before first outputs older review := by
  obtain ⟨_, machine⟩ := run.visit_machine v member
  obtain ⟨old, before, first, after, _, goneBy, _, _⟩ :=
    goesBackBy_of_sentBack ⟨v.project, desk.archive⟩ machine went
  obtain ⟨all, held, earlier⟩ := run_outputs run
  obtain rfl := Slot.proper.inj (Except.ok.inj (held.symm.trans goes.given))
  obtain ⟨same, there, grown⟩ := earlier v member
  obtain rfl := Slot.proper.inj (Except.ok.inj (there.symm.trans goneBy.given))
  exact ⟨same, before, first, after, goneBy, goes.succeeds goneBy grown⟩

theorem latestReview?_of_outputs {d : Document} {outputs older newer : List (Slot Artifact)}
    {review : Artifact} (given : outputsOf "review" d = .ok (.proper outputs))
    (newest : Artifact.IsNewest "review" (fun _ => .ok true) outputs older review newer) :
    latestReview? d = .ok (some review) := by
  rw [outputsOf, Document.askPhase] at given
  rcases there : d.phase? "review" with fault | _ | r
  all_goals rw [there] at given
  · cases given
  · obtain rfl := Slot.proper.inj (Except.ok.inj given)
    cases older <;> cases newest.split
  · rw [latestReview?, Document.newestOutput?,
      Document.askPhase_of_phase (Document.phase_eq_ok_iff.mpr there)]
    exact Phase.newestOutput?_eq_some_iff.mpr ⟨outputs, older, newer, Except.ok.inj given, newest⟩

/-- A project that was sent back, and is in review again with no review added, is to go back again. -/
theorem asked_again {edits : Document → Document → Prop} (run : Run edits visits desk) {v : Visit}
    (member : v ∈ visits) (went : v.sentBack = true) (state : desk.project.state = "ReviewActive")
    {old more : List (Slot Artifact)} (held : outputsOf "review" v.project.document = .ok (.proper old))
    (grown : outputsOf "review" desk.project.document = .ok (.proper (old ++ more)))
    (others : ∀ s ∈ more, ∃ a, s = .proper a ∧ a.type.holds "review" = false) :
    desk.project.eventFor none = .ok "review_fail" := by
  obtain ⟨_, before⟩ := run.visit_machine v member
  obtain ⟨outputs, older, review, newer, _, goneBy, _, _⟩ :=
    goesBackBy_of_sentBack ⟨v.project, desk.archive⟩ before went
  obtain rfl := Slot.proper.inj (Except.ok.inj (held.symm.trans goneBy.given))
  have latest := latestReview?_of_outputs grown (goneBy.newest.append others)
  obtain ⟨_, approved, assessed⟩ := goneBy.decided
  obtain ⟨current, machine⟩ := run.machine
  obtain rfl : current = "ReviewActive" := by
    rw [Project.state, machine] at state
    exact state
  exact (eventFor_fail_iff machine latest approved).mpr ⟨latest, approved, assessed⟩

/-- What sends a project back is the newest review, which is approved and failed, and that is taken along.
Of the reviews that sent it back before it is none if a review was added since, and else it is the same. -/
theorem sent_back_by (run : Run Appends visits desk)
    (back : Visit.sentBack ⟨desk.project, now⟩ = true) :
    ∃ outputs older review newer inputs,
      GoesBackBy desk.project.document outputs older review newer ∧
      inputsOf "implementation" desk.project.document = .ok (.proper inputs) ∧
      inputsOf "implementation" (Desk.advance now desk).2.project.document =
        .ok (.proper (inputs ++ [.proper review])) ∧
      ∀ v ∈ visits, v.sentBack = true →
        ∃ old before first after, GoesBackBy v.project.document old before first after ∧
          Succeeds old before first outputs older review := by
  obtain ⟨state, machine⟩ := run.machine
  obtain ⟨outputs, older, review, newer, inputs, goes, given, taken⟩ :=
    goesBackBy_of_sentBack desk machine back
  exact ⟨outputs, older, review, newer, inputs, goes, given, taken, fun v member went =>
    earlier_return run member went goes⟩

section

variable {change : Phase → Phase}

theorem appends_modifyPhase (touches : ∀ d, Touches d (d.modifyPhase name change))
    (grows : name = "review" → ∀ p outputs, p.outputs = .proper outputs →
      ∃ more, (change p).outputs = .proper (outputs ++ more)) (d : Document) :
    Appends d (d.modifyPhase name change) := by
  refine ⟨touches d, ?_⟩
  intro outputs given
  by_cases same : name = "review"
  · subst same
    rw [outputsOf, Document.askPhase] at given ⊢
    rw [Document.phase?_modifyPhase]
    rcases there : d.phase? "review" with fault | _ | r
    all_goals rw [there] at given
    · cases given
    · exact ⟨[], by rw [List.append_nil]; exact given⟩
    · obtain ⟨more, grown⟩ := grows rfl r outputs (Except.ok.inj given)
      exact ⟨more, congrArg Except.ok grown⟩
  · refine ⟨[], ?_⟩
    rw [List.append_nil, ← given, outputsOf, outputsOf, Document.askPhase, Document.askPhase,
      Document.phase?_modifyPhase_ne same]

theorem appends_id (d : Document) : Appends d (id d) :=
  ⟨touches_id d, fun outputs given => ⟨[], by rw [List.append_nil]; exact given⟩⟩

theorem appends_planned (d : Document) : Appends d (planned d) :=
  appends_modifyPhase touches_planned (fun other => absurd other (by decide)) d

theorem appends_built (d : Document) : Appends d (built d) :=
  appends_modifyPhase touches_built (fun other => absurd other (by decide)) d

theorem appends_reviewedWith (metadata : Metadata) (d : Document) :
    Appends d (reviewedWith metadata d) := by
  refine appends_modifyPhase (touches_reviewedWith metadata) ?_ d
  intro _ p outputs given
  simp only [given]
  exact ⟨_, rfl⟩

/-- The way to a second review, with nothing added to the failed one that there is. -/
def toReviewAgain : List (Document → Document) :=
  [planned, built, id, reviewedWith failing, built, id]

theorem toReviewAgain_appends : ∀ edit ∈ toReviewAgain, ∀ d, Appends d (edit d) := by
  simp only [toReviewAgain, List.forall_mem_cons, List.not_mem_nil, false_implies, implies_true,
    and_true]
  exact ⟨appends_planned, appends_built, appends_id, appends_reviewedWith _, appends_built, appends_id⟩

end

/-- A project that a second failed review sends back. -/
theorem sent_back_by_second :
    ∃ (visits : List Visit) (desk : Desk MemoryStore) (outputs older newer inputs : List (Slot Artifact))
      (review : Artifact), Run Appends visits desk ∧ visits.countP Visit.sentBack = 1 ∧
      Visit.sentBack ⟨desk.project, newYear⟩ = true ∧
      GoesBackBy desk.project.document outputs older review newer ∧
      inputsOf "implementation" (Desk.advance newYear desk).2.project.document =
        .ok (.proper (inputs ++ [.proper review])) ∧
      ∀ v ∈ visits, v.sentBack = true → ∃ old before first after,
        GoesBackBy v.project.document old before first after ∧
          Succeeds old before first outputs older review := by
  have reached : reaches blueprint toReviewAgain
      (fun visits desk => visits.countP Visit.sentBack = 1 ∧
        Visit.sentBack ⟨(desk.withDocument (reviewedWith failing desk.project.document)).project,
          newYear⟩) = true := by
    rw [blueprint_eq]
    decide +kernel
  obtain ⟨visits, desk, run, passes⟩ := run_of_reaches reached Appends toReviewAgain_appends
  obtain ⟨once, back⟩ := of_decide_eq_true passes
  have reviewed := run.edited (appends_reviewedWith failing desk.project.document)
  obtain ⟨outputs, older, review, newer, inputs, goes, _, taken, earlier⟩ := sent_back_by reviewed back
  exact ⟨_, _, outputs, older, newer, inputs, review, reviewed, once, back, goes, taken, earlier⟩

/-- One review, to which none was added, sends a project back twice. -/
theorem sent_back_twice :
    ∃ (visits : List Visit) (desk : Desk MemoryStore) (v : Visit) (review : Artifact),
      Run Appends visits desk ∧ v ∈ visits ∧ v.sentBack = true ∧
      Visit.sentBack ⟨desk.project, newYear⟩ = true ∧
      GoesBackBy v.project.document [.proper review] [] review [] ∧
      GoesBackBy desk.project.document [.proper review] [] review [] := by
  have reached : reaches blueprint toReviewAgain
      (fun visits desk => visits.any Visit.sentBack ∧ Visit.sentBack ⟨desk.project, newYear⟩ ∧
        ((outputsOf "review" desk.project.document).bind Many.elements).toOption.map List.length =
          some 1) = true := by
    rw [blueprint_eq]
    decide +kernel
  obtain ⟨visits, desk, run, passes⟩ := run_of_reaches reached Appends toReviewAgain_appends
  obtain ⟨went, back, single⟩ := of_decide_eq_true passes
  obtain ⟨v, member, went⟩ := List.any_eq_true.mp went
  obtain ⟨_, machine⟩ := run.machine
  obtain ⟨outputs, older, review, newer, _, goes, _, _⟩ := goesBackBy_of_sentBack desk machine back
  obtain ⟨old, before, first, after, goneBy, succeeds⟩ := earlier_return run member went goes
  rw [goes.given] at single
  obtain ⟨s, rfl⟩ := List.length_eq_one_iff.mp (Option.some.inj single)
  obtain ⟨rfl, same⟩ | ⟨_, none⟩ := List.append_eq_singleton_iff.mp goes.newest.split.symm
  · obtain ⟨rfl, rfl⟩ := List.cons.inj same
    obtain rfl : old = [.proper review] := by
      rcases List.prefix_cons_iff.mp succeeds.grown with rfl | ⟨rest, rfl, inside⟩
      · cases before <;> cases goneBy.newest.split
      · rw [List.prefix_nil.mp inside]
    have none : ¬HoldsReview ([.proper review].drop [Slot.proper review].length) := by
      rintro ⟨_, listed, _⟩
      exact absurd listed List.not_mem_nil
    obtain ⟨rfl, rfl⟩ := succeeds.same none
    obtain rfl : [] = after := (List.cons.inj goneBy.newest.split).2
    exact ⟨visits, desk, v, review, run, member, went, back, goneBy, goes⟩
  · cases none

end Standard

end Lifecycle
