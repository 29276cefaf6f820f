import Lifecycle.Proofs.Newest
import Lifecycle.Proofs.Present
import Lifecycle.Proofs.Standard.Routes
import Lifecycle.Proofs.Unsaved
/-!
How a review is left. The newest review has to be approved, and then it is the one whose assessment says
where the project goes by itself; told to, a project goes on whatever the assessment, and it goes back if
there is a failed review to take along. -/

namespace Lifecycle

theorem Value.same_text_iff (v : Value) (s : String) : v.same (.text s) = true ↔ v = .text s := by
  cases v with
  | text t => rw [Value.same, decide_eq_true_iff, Value.text.injEq]
  | _ => exact ⟨nofun, nofun⟩

theorem Value.asText_eq {v : Value} {s : String} (reads : v.asText = s) (named : s ≠ "") : v = .text s := by
  cases v with
  | text t => exact congrArg Value.text reads
  | _ => exact absurd reads.symm named

/-- A phase taken up again, with a review among its inputs. -/
def Phase.reworked (now : Timestamp) (review : Artifact) (p : Phase) : Except Fault Phase := do
  let q ← (p.reopen now).iterate
  let metadata ← q.metadata.takeEntry "tasks_approved"
  let inputs ← q.inputs.add review
  return { q with metadata, inputs }

theorem Phase.reworked_eq_ok {now : Timestamp} {review : Artifact} {p last : Phase} :
    p.reworked now review = .ok last ↔
      ∃ q metadata inputs, (p.reopen now).iterate = .ok q ∧
        q.metadata.takeEntry "tasks_approved" = .ok metadata ∧ q.inputs.add review = .ok inputs ∧
        last = { q with metadata, inputs } := by
  constructor
  · intro done
    obtain ⟨q, iterated, done⟩ := Except.bind_eq_ok.mp done
    obtain ⟨metadata, taken, done⟩ := Except.bind_eq_ok.mp done
    obtain ⟨inputs, added, done⟩ := Except.bind_eq_ok.mp done
    cases done
    exact ⟨q, metadata, inputs, iterated, taken, added, rfl⟩
  · rintro ⟨q, metadata, inputs, iterated, taken, added, rfl⟩
    simp only [reworked, iterated, bind, Except.bind, taken, added]
    rfl

/-- What was taken up again has a list of inputs and a map of metadata, and the review comes last. -/
theorem Phase.reworked_given {now : Timestamp} {review : Artifact} {p last : Phase}
    (made : p.reworked now review = .ok last) :
    ∃ metadata inputs, p.metadata = .proper metadata ∧ p.inputs = .proper inputs ∧
      last.inputs = .proper (inputs ++ [.proper review]) := by
  obtain ⟨q, _, _, iterated, without, added, rfl⟩ := reworked_eq_ok.mp made
  obtain ⟨_, _, same⟩ := Except.bind_eq_ok.mp iterated
  cases same
  rcases held : p.metadata with metadata | v
  · rcases given : p.inputs with inputs | v
    · rw [show (p.reopen now).inputs = .proper inputs from given] at added
      exact ⟨metadata, inputs, rfl, rfl, (Except.ok.inj added).symm⟩
    · rw [show (p.reopen now).inputs = .stray v from given] at added
      cases added
  · rw [show (p.reopen now).metadata = .stray v from held] at without
    cases without

namespace Standard

variable {d edited : Document} {review : Artifact} {now : Timestamp} {verdict : String}

theorem isFailedReview_iff :
    isFailedReview review = .ok true ↔
      review.isApproved = true ∧ review.metadata.entry "assessment" = .ok (.text "fail") := by
  rw [isFailedReview]
  cases review.isApproved with
  | false => exact ⟨nofun, nofun⟩
  | true =>
      rw [if_pos rfl]
      cases review.metadata.entry "assessment" with
      | error fault => exact ⟨nofun, nofun⟩
      | ok v =>
          simp only [bind, Except.bind, pure, Except.pure, Except.ok.injEq, Value.same_text_iff,
            true_and]

/-- The newest review is approved, and this is its assessment. -/
structure Verdict (d : Document) (review : Artifact) (verdict : String) : Prop where
  latest : latestReview? d = .ok (some review)
  approved : review.isApproved = true
  assessed : review.metadata.entry "assessment" = .ok (.text verdict)

theorem latestReviewApproved_iff :
    latestReviewApproved d = .ok true ↔
      ∃ review, latestReview? d = .ok (some review) ∧ review.isApproved = true := by
  rw [latestReviewApproved, latestReviewApproval]
  cases latestReview? d with
  | error fault =>
      constructor
      · nofun
      · rintro ⟨_, same, _⟩
        cases same
  | ok found =>
      cases found with
      | none =>
          constructor
          · nofun
          · rintro ⟨_, same, _⟩
            cases same
      | some review =>
          constructor
          · exact fun approved => ⟨review, rfl, Except.ok.inj approved⟩
          · rintro ⟨_, same, approved⟩
            cases same
            exact congrArg Except.ok approved

/-- A newest review that passes a test is the newest one that does. -/
theorem newestOutput?_of_latest {r : Phase} {test : Artifact → Except Fault Bool}
    (there : d.phase "review" = .ok r) (latest : latestReview? d = .ok (some review))
    (passes : test review = .ok true) : r.newestOutput? "review" test = .ok (some review) := by
  rw [latestReview?, Document.newestOutput?, Document.askPhase_of_phase there] at latest
  obtain ⟨outputs, older, newer, given, newest⟩ := Phase.newestOutput?_eq_some_iff.mp latest
  exact Phase.newestOutput?_eq_some_iff.mpr ⟨outputs, older, newer, given,
    newest.mono passes nofun⟩

theorem Verdict.newestFailed (decided : Verdict d review "fail") {r : Phase}
    (beside : d.phase "review" = .ok r) : r.newestOutput? "review" isFailedReview = .ok (some review) :=
  newestOutput?_of_latest beside decided.latest
    (isFailedReview_iff.mpr ⟨decided.approved, decided.assessed⟩)

theorem newestApprovedOutput?_of_latest (latest : latestReview? d = .ok (some review))
    (approved : review.isApproved = true) :
    d.newestApprovedOutput? "review" "review" = .ok (some review) := by
  obtain ⟨r, there, _⟩ := Document.phase_of_askPhase latest
  rw [Document.newestApprovedOutput?, Document.askPhase_of_phase there]
  exact newestOutput?_of_latest there latest (congrArg Except.ok approved)

/-- Where the newest review is approved, what decides is its assessment. -/
theorem reviewAssessment_iff (latest : latestReview? d = .ok (some review))
    (approved : review.isApproved = true) (named : verdict ≠ "") :
    reviewAssessment d = .ok verdict ↔ Verdict d review verdict := by
  rw [reviewAssessment, newestApprovedOutput?_of_latest latest approved]
  simp only [bind, Except.bind]
  rcases given : review.metadata.entry "assessment" with fault | v
  · constructor
    · nofun
    · intro decided
      cases given.symm.trans decided.assessed
  · constructor
    · intro reads
      have text := Value.asText_eq (Except.ok.inj reads) named
      exact ⟨latest, approved, given.trans (congrArg Except.ok text)⟩
    · intro decided
      have text := Except.ok.inj (given.symm.trans decided.assessed)
      rw [text]
      rfl

/-- Going back succeeds if there is a failed review that can be copied and the implementation can be
taken up with it, and then that is what it does. -/
theorem rework_eq_ok :
    rework now d = (.ok (), edited) ↔
      ∃ p q r review, d.phase "implementation" = .ok p ∧ d.phase "review" = .ok r ∧
        r.newestOutput? "review" isFailedReview = .ok (some review) ∧
        review.toValue.checkCopy = .ok () ∧ p.reworked now review = .ok q ∧
        edited = d.modifyPhase "implementation" fun _ => q := by
  have apart : "implementation" ≠ "review" := by decide
  constructor
  · intro done
    obtain ⟨⟨⟩, _, reopened, done⟩ := Attempt.bind_eq_ok.mp done
    obtain ⟨p, _, there, same, rfl⟩ := Edit.changePhase_eq_ok.mp reopened
    obtain rfl := Except.ok.inj same
    obtain ⟨_, _, counted, done⟩ := Attempt.bind_eq_ok.mp done
    obtain ⟨q, iterated, _, rfl⟩ := (Edit.iteratePhase_again_eq_ok there).mp counted
    obtain ⟨⟨⟩, _, taken, done⟩ := Attempt.bind_eq_ok.mp done
    obtain ⟨_, took, rfl⟩ := (Edit.changePhase_again_eq_ok there).mp taken
    obtain ⟨metadata, without, same⟩ := Except.bind_eq_ok.mp took
    cases same
    obtain ⟨review, _, copied, done⟩ := Attempt.bind_eq_ok.mp done
    cases done
    obtain ⟨r, inputs, beside, found, copies, added, rfl⟩ :=
      (Edit.copyOutput_again_eq_ok there apart).mp copied
    exact ⟨p, _, r, review, there, beside, found, copies,
      Phase.reworked_eq_ok.mpr ⟨q, metadata, inputs, iterated, without, added, rfl⟩, rfl⟩
  · rintro ⟨p, last, r, review, there, beside, found, copies, made, rfl⟩
    obtain ⟨q, metadata, inputs, iterated, without, added, rfl⟩ := Phase.reworked_eq_ok.mp made
    have opens : Edit.reopenPhase now "implementation" d =
        (.ok (), d.modifyPhase "implementation" fun _ => p.reopen now) :=
      Edit.run_changePhase there rfl
    have counts := (Edit.iteratePhase_again_eq_ok there).mpr ⟨q, iterated, rfl, rfl⟩
    have takes : Edit.takeMetadata "implementation" "tasks_approved"
        (d.modifyPhase "implementation" fun _ => q) = (.ok (), _) :=
      (Edit.changePhase_again_eq_ok there).mpr ⟨{ q with metadata }, by rw [without]; rfl, rfl⟩
    have copied := (Edit.copyOutput_again_eq_ok (q := { q with metadata }) there apart).mpr
      ⟨r, inputs, beside, found, copies, added, rfl⟩
    rw [rework, Attempt.run_bind_ok opens, Attempt.run_bind_ok counts, Attempt.run_bind_ok takes,
      Attempt.run_bind_ok copied]
    rfl

/-- The newest of the reviews that were approved and came to a failure. -/
def newestFailedReview? (d : Document) : Except Fault (Option Artifact) :=
  d.askPhase "review" none fun r => r.newestOutput? "review" isFailedReview

theorem newestFailedReview?_fails (found : newestFailedReview? d = .ok (some review)) :
    review.isApproved = true ∧ review.metadata.entry "assessment" = .ok (.text "fail") := by
  obtain ⟨r, _, newest⟩ := Document.phase_of_askPhase found
  obtain ⟨_, _, _, _, newest⟩ := Phase.newestOutput?_eq_some_iff.mp newest
  exact isFailedReview_iff.mp newest.passes

section

variable {p moved : Project} {event : Option String} {t : Transition}

theorem review_routes (member : t ∈ transitions) (leaves : t.source = "ReviewActive") :
    t = failReview ∨ t = passReview := by
  have routes : transitions.filter (fun t => t.source = "ReviewActive") = [failReview, passReview] :=
    rfl
  have among : t ∈ transitions.filter fun t => t.source = "ReviewActive" :=
    List.mem_filter.mpr ⟨member, decide_eq_true leaves⟩
  rw [routes] at among
  simpa using among

theorem review_guard (route : t = failReview ∨ t = passReview) {m : Machine} :
    m.passes d t = .ok true ↔ latestReviewApproved d = .ok true := by
  rcases route with rfl | rfl <;> exact Machine.passes_guardOn rfl

/-- A project that moves by itself goes back if its newest review, which is approved, failed. -/
theorem eventFor_fail_iff (machine : p.machine = .start blueprint "ReviewActive")
    (latest : latestReview? p.document = .ok (some review)) (approved : review.isApproved = true) :
    p.eventFor none = .ok "review_fail" ↔ Verdict p.document review "fail" := by
  rw [eventFor_none machine, determineEvent_review, ← reviewAssessment_iff latest approved (by decide)]
  constructor
  · rintro (⟨other, _⟩ | ⟨_, assessed⟩)
    · exact absurd other (by decide)
    · exact assessed
  · exact fun assessed => .inr ⟨rfl, assessed⟩

theorem eventFor_pass_iff (machine : p.machine = .start blueprint "ReviewActive")
    (latest : latestReview? p.document = .ok (some review)) (approved : review.isApproved = true) :
    p.eventFor none = .ok "review_pass" ↔ Verdict p.document review "pass" := by
  rw [eventFor_none machine, determineEvent_review, ← reviewAssessment_iff latest approved (by decide)]
  constructor
  · rintro (⟨_, assessed⟩ | ⟨other, _⟩)
    · exact assessed
    · exact absurd other (by decide)
  · exact fun assessed => .inl ⟨rfl, assessed⟩

/-- Whichever way a review is left, the newest one is approved. A project that moves by itself goes on if
that one passed and back if it failed; a project that is told where to go goes back only if some review
that was approved failed. -/
theorem leaving_review (machine : p.machine = .start blueprint "ReviewActive")
    (fires : p.Fires now event t moved) :
    (t.target = "FinalizeDocumentation" ∨ t.target = "ImplementationPlanning") ∧
    ∃ review, latestReview? p.document = .ok (some review) ∧ review.isApproved = true ∧
      p.document.newestApprovedOutput? "review" "review" = .ok (some review) ∧
      (event = none →
        (t.target = "FinalizeDocumentation" → Verdict p.document review "pass") ∧
        (t.target = "ImplementationPlanning" → Verdict p.document review "fail")) ∧
      (t.target = "ImplementationPlanning" → ∃ failed,
        newestFailedReview? p.document = .ok (some failed) ∧ failed.isApproved = true ∧
        failed.metadata.entry "assessment" = .ok (.text "fail")) := by
  obtain ⟨member, leaves, asked, passed, fired⟩ := fires_listed machine fires
  have route := review_routes member leaves
  have approved := (review_guard route).mp passed
  obtain ⟨review, latest, isApproved⟩ := latestReviewApproved_iff.mp approved
  refine ⟨?_, review, latest, isApproved, newestApprovedOutput?_of_latest latest isApproved, ?_, ?_⟩
  · rcases route with rfl | rfl
    · exact .inr rfl
    · exact .inl rfl
  · rintro rfl
    rcases route with rfl | rfl
    · exact ⟨fun other => absurd other (by decide),
        fun _ => (eventFor_fail_iff machine latest isApproved).mp asked⟩
    · exact ⟨fun _ => (eventFor_pass_iff machine latest isApproved).mp asked,
        fun other => absurd other (by decide)⟩
  · intro back
    rcases route with rfl | rfl
    · rw [← leaves] at machine
      rcases reworked : rework now p.document with ⟨fault | ⟨⟩, edited⟩
      · rw [run_fire now member machine passed, show entering now failReview = rework now from rfl,
          reworked] at fired
        cases fired
      · obtain ⟨_, _, r, failed, _, beside, found, _⟩ := rework_eq_ok.mp reworked
        have newest : newestFailedReview? p.document = .ok (some failed) :=
          (Document.askPhase_of_phase beside _ _).trans found
        exact ⟨failed, newest, newestFailedReview?_fails newest⟩
    · exact absurd back (by decide)

end

/-- A project in review, its one review approved. -/
def reviewed (verdict : String) : Project :=
  let review : Artifact := ⟨.proper "review", .proper "review.md", .proper true, .proper newYear,
    .proper [("assessment", .text verdict)]⟩
  let phases := [("implementation", Phase.fresh newYear []),
    ("review", { Phase.fresh newYear [] with outputs := .ofList [review] })]
  .start blueprint { Document.sample [] with phases := .ofEntries phases } "ReviewActive"

theorem leaving_review_back :
    ∃ moved, (reviewed "fail").Fires newYear none failReview moved ∧
      ∃ review, latestReview? (reviewed "fail").document = .ok (some review) ∧
        Verdict (reviewed "fail").document review "fail" := by
  have decided : (reviewed "fail").eventFor none = .ok "review_fail" :=
    (eventFor_none rfl).trans (determineEvent_review.mpr (.inr ⟨rfl, rfl⟩))
  have passed : (reviewed "fail").machine.passes (reviewed "fail").document failReview = .ok true := rfl
  have done : (rework newYear (reviewed "fail").document).1.isOk = true := by decide +kernel
  rcases reworked : rework newYear (reviewed "fail").document with ⟨fault | ⟨⟩, edited⟩
  · rw [reworked] at done
    cases done
  · have fired := run_fire newYear (t := failReview) (by simp [transitions]) rfl passed
    rw [show entering newYear failReview = rework newYear from rfl, reworked] at fired
    have fires : (reviewed "fail").Fires newYear none failReview _ := ⟨_, decided, fired⟩
    obtain ⟨_, review, latest, _, _, chosen, _⟩ := leaving_review rfl fires
    exact ⟨_, fires, review, latest, (chosen rfl).2 rfl⟩

/-- Told to, a project goes on although its review failed. -/
theorem told_to_pass :
    ∃ moved, (reviewed "fail").Fires newYear (some "review_pass") passReview moved ∧
      passReview.target = "FinalizeDocumentation" ∧
      ∃ review, (reviewed "fail").document.newestApprovedOutput? "review" "review" = .ok (some review) ∧
        review.metadata.entry "assessment" = .ok (.text "fail") :=
  ⟨_, ⟨_, rfl, run_fire newYear (t := passReview) (by simp [transitions]) rfl rfl⟩, rfl, _, rfl, rfl⟩

end Standard

end Lifecycle
