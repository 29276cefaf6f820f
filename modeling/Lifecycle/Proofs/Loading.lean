import Lifecycle.Proofs.Findings
import Lifecycle.Proofs.Received
import Lifecycle.Proofs.Sorting
/-!
Loading, step by step: the text is read and decoded, the document is held against the rules and the plans
of its type, and a machine is set up in the state that is noted. Nothing but the reading touches storage. -/

namespace Lifecycle

theorem Reading.result_failsAs {α : Type} (r : Reading α) :
    FailsAs (fun fault => ∃ problems, fault = .malformed problems) r.result := by
  rw [result]
  split
  · exact .ok _
  · exact .error ⟨_, rfl⟩

theorem Document.checkStructure_eq_ok {d : Document} {u : Unit} :
    d.checkStructure = .ok u ↔ d.problems = [] := by
  rw [checkStructure, structureFindings]
  cases d.problems with
  | nil => exact ⟨fun _ => rfl, fun _ => rfl⟩
  | cons problem rest => constructor <;> intro same <;> cases same

/-- A typed document notes a state. -/
theorem Document.Typed.noted {condition : Condition} {d : Document} (typed : d.Typed condition) :
    ∃ state, d.current = .ok (.proper state) := by
  obtain ⟨chart, given, chartTyped⟩ := typed.statechart.elim
  obtain ⟨state, _, rfl, _⟩ := chartTyped.elim
  exact ⟨state, by rw [current, given]; rfl⟩

theorem Blueprint.checkPhases_eq_ok {b : Blueprint} {d : Document} {checkers : Checkers} {u : Unit} :
    (b.checkPhases d checkers).1 = .ok u ↔ (b.phasesFindings d checkers).1 = .ok [] := by
  cases found : (b.phasesFindings d checkers).1 with
  | error fault =>
      rw [checkPhases, Attempt.bind_fails found]
      constructor <;> intro same <;> cases same
  | ok found' =>
      rw [checkPhases_of_findings found]
      cases found' with
      | nil => exact ⟨fun _ => rfl, fun _ => rfl⟩
      | cons finding rest => constructor <;> intro same <;> cases same

/-- What speaks against the phases of a document is a schema that is of no use, or findings. -/
theorem Blueprint.checkPhases_failsAs {condition : Condition} {d : Document} (b : Blueprint)
    (typed : d.Typed condition) (checkers : Checkers) :
    FailsAs (fun fault => fault = .invalidSchema ∨ ∃ found, fault = .invalidProject "validate metadata" found)
      (b.checkPhases d checkers).1 := by
  by_cases checkable : b.Checkable d
  · obtain ⟨found, done⟩ := b.phasesFindings_succeeds typed checkable checkers
    rw [checkPhases_of_findings done]
    split
    · exact .ok _
    · exact .error (.inr ⟨found, rfl⟩)
  · rw [checkPhases, Attempt.bind_fails (b.phasesFindings_unusable typed checkable checkers)]
    exact .error (.inl rfl)

namespace FileStore

variable {φ : Type} [FileSystem φ]

theorem run_load (now : Timestamp) (store : FileStore φ) :
    load now store =
      ((FileSystem.read store.path store.files).1.mapError (account store.path "read") >>=
          decode store.path now,
        { store with files := (FileSystem.read store.path store.files).2 }) := by
  rw [load, Attempt.run_bind_ok (Attempt.run_get store), Attempt.run_bind, Attempt.run_rethrow, onFiles,
    Attempt.run_focus]
  cases (FileSystem.read store.path store.files).1 with
  | error fault => rfl
  | ok text => rfl

end FileStore

namespace Project

variable {σ : Type} [Backend σ] {registry : Registry} {now : Timestamp} {archive : Archive σ}

/-- What is left to do once a document was found. -/
def accept (registry : Registry) (d : Document) : Attempt Checkers Project := do
  Attempt.ofExcept d.checkStructure
  let b ← Attempt.ofExcept (registry.get d.type.display)
  let state ← Attempt.ofExcept d.current
  b.checkPhases d
  return .start b d state.display

theorem load_eq (registry : Registry) (now : Timestamp) (archive : Archive σ) :
    load registry now archive =
      match Backend.load now archive.store with
      | (.error fault, store) => (.error fault, { archive with store })
      | (.ok d, store) =>
        ((accept registry d archive.checkers).1, ⟨store, (accept registry d archive.checkers).2⟩) := by
  rw [load, Attempt.run_bind, Archive.onStore, Attempt.run_focus]
  rcases Backend.load now archive.store with ⟨fault | d, store⟩
  · rfl
  · simp only [accept, Attempt.ofExcept_bind]
    cases d.checkStructure with
    | error fault => rfl
    | ok _ =>
        simp only
        cases registry.get d.type.display with
        | error fault => rfl
        | ok b =>
            simp only
            cases d.current with
            | error fault => rfl
            | ok state =>
                simp only
                rw [Attempt.run_bind, Attempt.run_bind, Archive.onCheckers, Attempt.run_focus]
                rcases b.checkPhases d archive.checkers with ⟨fault | ⟨⟩, checkers⟩ <;> rfl

theorem load_result (registry : Registry) (now : Timestamp) (archive : Archive σ) :
    (load registry now archive).1 =
      (Backend.load now archive.store).1 >>= fun d => (accept registry d archive.checkers).1 := by
  rw [load_eq]
  rcases Backend.load now archive.store with ⟨fault | d, store⟩ <;> rfl

theorem load_store (registry : Registry) (now : Timestamp) (archive : Archive σ) :
    (load registry now archive).2.store = (Backend.load now archive.store).2 := by
  rw [load_eq]
  rcases Backend.load now archive.store with ⟨fault | d, store⟩ <;> rfl

theorem run_accept (registry : Registry) (d : Document) (checkers : Checkers) :
    (accept registry d checkers).1 = do
      d.checkStructure
      let b ← registry.get d.type.display
      let state ← d.current
      (b.checkPhases d checkers).1
      return .start b d state.display := by
  rw [accept, Attempt.ofExcept_bind]
  cases d.checkStructure with
  | error fault => rfl
  | ok _ =>
      simp only [Attempt.ofExcept_bind]
      cases registry.get d.type.display with
      | error fault => rfl
      | ok b =>
          simp only
          cases d.current with
          | error fault => rfl
          | ok state =>
              simp only
              rw [Attempt.run_bind]
              simp only [bind, Except.bind]
              rcases b.checkPhases d checkers with ⟨fault | ⟨⟩, after⟩ <;> rfl

/-- What is accepted obeys the rules and fits the plans of its type; its machine stands where it is noted
to stand. -/
theorem accept_eq_ok {d : Document} {checkers : Checkers} {p : Project} :
    (accept registry d checkers).1 = .ok p ↔
      d.problems = [] ∧ ∃ b, registry.get d.type.display = .ok b ∧ ∃ state, d.current = .ok state ∧
        (b.phasesFindings d checkers).1 = .ok [] ∧ p = .start b d state.display := by
  simp only [run_accept, Except.bind_eq_ok, exists_const, Document.checkStructure_eq_ok,
    Blueprint.checkPhases_eq_ok, pure, Except.pure, Except.ok.injEq, @eq_comm Project p]

/-- What was loaded was held against the plans of its type, so their schemas can be checked against. -/
theorem load_checkable {condition : Condition} {p : Project} (typed : p.document.Typed condition)
    (loaded : (load registry now archive).1 = .ok p) : p.blueprint.Checkable p.document := by
  rw [load_eq] at loaded
  rcases found : Backend.load now archive.store with ⟨cause | d, store⟩
  · rw [found] at loaded
    cases loaded
  · rw [found] at loaded
    obtain ⟨_, b, _, state, _, clean, rfl⟩ := accept_eq_ok.mp loaded
    by_contra not
    have refused : (b.phasesFindings d archive.checkers).1 = _ := b.phasesFindings_unusable typed not _
    rw [refused] at clean
    cases clean

end Project

end Lifecycle
