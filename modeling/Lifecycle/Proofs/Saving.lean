import Lifecycle.Project.Advance
import Lifecycle.Proofs.Attempt
import Lifecycle.Proofs.Typed
/-!
What saving, keeping and firing come to, step by step: which step failed, and what was done until
then. -/

namespace Lifecycle

variable {condition : Condition}

/-- Syncing a typed document changes at most what its statechart notes, which is the machine's state. -/
theorem Document.sync_typed {d : Document} (typed : d.Typed condition) {now : Timestamp}
    (proper : now.Proper) (state : String) :
    ∃ noted, d.sync now state = .ok { d with statechart := .proper noted } ∧
      Document.Typed condition { d with statechart := .proper noted } ∧
        noted.current = .proper state := by
  obtain ⟨chart, given, chartTyped⟩ := typed.statechart.elim
  obtain ⟨current, updatedAt, rfl, updated⟩ := chartTyped.elim
  have noted : d.current = .ok (.proper current) := by
    rw [Document.current, given]
    rfl
  rw [Document.sync, noted]
  simp only [bind, Except.bind, Slot.holds]
  by_cases same : current = state
  · refine ⟨⟨.proper current, .proper updatedAt⟩, ?_, ?_, ?_⟩
    · rw [← given]
      simp only [same, decide_true, if_true, pure, Except.pure]
    · exact { typed with statechart := ⟨True.intro, updated⟩ }
    · rw [same]
  · refine ⟨.noted state now, ?_, ?_, rfl⟩
    · simp only [same, decide_false, Bool.false_eq_true, if_false, pure, Except.pure]
    · exact { typed with statechart := ⟨True.intro, proper⟩ }

namespace Project

theorem run_sync (now : Timestamp) (p : Project) :
    sync now p =
      match p.document.sync now p.state with
      | .ok document => (.ok (), { p with document })
      | .error fault => (.error fault, p) := by
  rw [sync, Attempt.run_bind_ok (Attempt.run_get p), Attempt.ofExcept_bind]
  cases p.document.sync now p.state <;> rfl

end Project

namespace Desk

variable {σ : Type}

/-- A desk whose document is another one. -/
def withDocument (desk : Desk σ) (document : Document) : Desk σ :=
  { desk with project := { desk.project with document } }

theorem run_stamp (now : Timestamp) (desk : Desk σ) :
    stamp now desk =
      match desk.project.document.sync now desk.project.state with
      | .ok d => (.ok (), desk.withDocument { d with updatedAt := .proper now })
      | .error fault => (.error fault, desk) := by
  rw [stamp, onProject, Attempt.run_focus, Attempt.run_bind, Project.run_sync]
  cases desk.project.document.sync now desk.project.state <;> rfl

variable [Backend σ]

/-- What becomes of a document that is up to date: it is checked, then stored. -/
def deposit (d : Document) (desk : Desk σ) : Except Fault Unit × Desk σ :=
  match desk.project.blueprint.check d desk.archive.checkers with
  | (.error fault, checkers) => (.error fault, { desk with archive := { desk.archive with checkers } })
  | (.ok _, checkers) =>
    let (outcome, store) := Backend.save d desk.archive.store
    (outcome, { desk with archive := ⟨store, checkers⟩ })

theorem run_save (now : Timestamp) (desk : Desk σ) :
    save now desk =
      match desk.project.document.sync now desk.project.state with
      | .error fault => (.error fault, desk)
      | .ok d =>
        let d := { d with updatedAt := .proper now }
        deposit d (desk.withDocument d) := by
  rw [save, Attempt.run_bind, run_stamp]
  cases desk.project.document.sync now desk.project.state with
  | error fault => rfl
  | ok d =>
      simp only
      rw [Attempt.run_bind_ok (Attempt.run_get _), Attempt.run_bind, onArchive, Attempt.run_focus,
        Archive.onCheckers, Attempt.run_focus, deposit]
      simp only [withDocument, Project.blueprint]
      rcases Blueprint.check _ _ _ with ⟨fault | ⟨⟩, checkers⟩
      · rfl
      · rfl

theorem deposit_ok {d : Document} {desk after : Desk σ}
    (done : deposit d desk = (.ok (), after)) :
    (desk.project.blueprint.check d desk.archive.checkers).1 = .ok () ∧
      Backend.save d desk.archive.store = (.ok (), after.archive.store) ∧
        after.project = desk.project := by
  rw [deposit] at done
  rcases checked : desk.project.blueprint.check d desk.archive.checkers with ⟨fault | ⟨⟩, checkers⟩
  · rw [checked] at done
    cases done
  · rw [checked] at done
    rcases stored : Backend.save d desk.archive.store with ⟨result, store⟩
    rw [stored] at done
    cases done
    exact ⟨rfl, rfl, rfl⟩

/-- What is not stored did not pass the check, or it could not be stored. -/
theorem deposit_eq_error {d : Document} {desk : Desk σ} {fault : Fault} :
    (deposit d desk).1 = .error fault ↔
      (desk.project.blueprint.check d desk.archive.checkers).1 = .error fault ∨
        (desk.project.blueprint.check d desk.archive.checkers).1 = .ok () ∧
          (Backend.save d desk.archive.store).1 = .error fault := by
  rw [deposit]
  rcases desk.project.blueprint.check d desk.archive.checkers with ⟨other | ⟨⟩, checkers⟩
  · simp
  · simp only [reduceCtorEq, false_or, true_and]
    rfl

/-- What was saved had passed the check and was stored as it is. -/
theorem save_ok {now : Timestamp} {desk after : Desk σ} (saved : save now desk = (.ok (), after)) :
    ∃ d, desk.project.document.sync now desk.project.state = .ok d ∧
      (desk.project.blueprint.check { d with updatedAt := .proper now } desk.archive.checkers).1 =
        .ok () ∧
      (Backend.save { d with updatedAt := .proper now } desk.archive.store) =
        (.ok (), after.archive.store) ∧
      after.project = (desk.withDocument { d with updatedAt := .proper now }).project := by
  rw [run_save] at saved
  cases synced : desk.project.document.sync now desk.project.state with
  | error fault =>
      rw [synced] at saved
      cases saved
  | ok d =>
      rw [synced] at saved
      exact ⟨d, rfl, deposit_ok saved⟩

/-- A typed document can be brought up to date, so that saving it comes down to checking and storing it. -/
theorem run_save_typed {desk : Desk σ} {now : Timestamp}
    (typed : desk.project.document.Typed condition) (proper : now.Proper) :
    ∃ d : Document, d.Typed condition ∧ d.phases = desk.project.document.phases ∧
      d.type = desk.project.document.type ∧ d.current = .ok (.proper desk.project.state) ∧
      save now desk = deposit d (desk.withDocument d) := by
  obtain ⟨noted, synced, syncedTyped, current⟩ :=
    Document.sync_typed typed proper desk.project.state
  refine ⟨{ desk.project.document with statechart := .proper noted, updatedAt := .proper now },
    { syncedTyped with updatedAt := proper }, rfl, rfl, ?_, ?_⟩
  · rw [Document.current, ← current]
    rfl
  · rw [run_save, synced]

/-- What a save that succeeds has checked and stored: the document, up to date. -/
theorem save_typed {desk after : Desk σ} {now : Timestamp}
    (typed : desk.project.document.Typed condition) (proper : now.Proper)
    (saved : save now desk = (.ok (), after)) :
    ∃ d : Document, d.Typed condition ∧ d.phases = desk.project.document.phases ∧
      d.type = desk.project.document.type ∧ d.current = .ok (.proper desk.project.state) ∧
      (desk.project.blueprint.check d desk.archive.checkers).1 = .ok () ∧
      Backend.save d desk.archive.store = (.ok (), after.archive.store) := by
  obtain ⟨d, stamped, phases, type, current, same⟩ := run_save_typed typed proper
  rw [same] at saved
  obtain ⟨checked, written, _⟩ := deposit_ok saved
  exact ⟨d, stamped, phases, type, current, checked, written⟩

end Desk

/-- A new project is made and saved, and it is the saved project that is returned. -/
theorem Project.run_create {σ : Type} [Backend σ] (registry : Registry) (now : Timestamp) (r : Request)
    (archive : Archive σ) :
    create registry now r archive =
      match Project.new registry now r with
      | .error fault => (.error fault, archive)
      | .ok p =>
        match Desk.save now ⟨p, archive⟩ with
        | (.error fault, desk) => (.error fault, desk.archive)
        | (.ok _, desk) => (.ok desk.project, desk.archive) := by
  rw [create, Attempt.ofExcept_bind]
  cases Project.new registry now r with
  | error fault => rfl
  | ok p =>
      simp only
      rcases Desk.save now ⟨p, archive⟩ with ⟨fault | ⟨⟩, desk⟩ <;> rfl

end Lifecycle
