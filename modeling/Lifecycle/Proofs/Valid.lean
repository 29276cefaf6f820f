import Lifecycle.Proofs.Findings
import Lifecycle.Proofs.Legible
import Lifecycle.Proofs.Present
/-!
Documents in which neither tier of validation finds anything wrong. They show all their phases, and stay so
over every edit that puts an acceptable phase in the place of another. -/

namespace Lifecycle

/-- A phase that passes both tiers under a name. -/
structure Blueprint.Approves (b : Blueprint) (name : String) (p : Phase) : Prop where
  legible : p.Legible
  passes : ∃ plan, b.phase? name = some plan ∧ plan.Passes name p

/-- A document that passes both tiers. -/
structure Document.Valid (b : Blueprint) (d : Document) : Prop where
  legible : d.Legible
  passes : ∃ entries, d.phases = .proper entries ∧ ∀ entry ∈ entries, b.Passes entry.1 entry.2

variable {b : Blueprint}

/-- Nothing is found in valid documents and something in the rest, whatever was checked before. -/
theorem Blueprint.findings_nil_iff {d : Document} {checkers : Checkers} :
    (b.findings d checkers).1 = .ok [] ↔ d.Valid b := by
  rw [findings, Attempt.bind_pure_ok]
  simp only [List.append_eq_nil_iff]
  constructor
  · intro clean
    obtain ⟨found, passed, structural, nothing⟩ := clean
    rw [nothing] at passed
    exact ⟨d.problems_nil_iff.mp (List.map_eq_nil_iff.mp structural),
      (b.phasesFindings_passes_iff d checkers).mp passed⟩
  · intro valid
    exact ⟨[], (b.phasesFindings_passes_iff d checkers).mpr valid.passes,
      List.map_eq_nil_iff.mpr (d.problems_nil_iff.mpr valid.legible), rfl⟩

theorem Blueprint.check_of_valid {d : Document} (valid : d.Valid b) (checkers : Checkers) :
    (b.check d checkers).1 = .ok () :=
  check_of_clean (d.problems_nil_iff.mpr valid.legible)
    ((b.phasesFindings_passes_iff d checkers).mpr valid.passes)

namespace Blueprint.Approves

variable {name : String} {p q : Phase} {now : Timestamp}

/-- What a plan looks at does not change with where a phase stands. -/
theorem of_same (approved : b.Approves name p) (legible : q.Legible) (inputs : q.inputs = p.inputs)
    (outputs : q.outputs = p.outputs) (tasks : q.tasks = p.tasks) (metadata : q.metadata = p.metadata) :
    b.Approves name q := by
  have ⟨plan, declared, passes⟩ := approved.passes
  exact ⟨legible, plan, declared, inputs ▸ passes.inputs, outputs ▸ passes.outputs,
    tasks ▸ passes.tasks, metadata ▸ passes.metadata⟩

theorem start (approved : b.Approves name p) (dated : now.Proper) : b.Approves name (p.start now) := by
  apply approved.of_same (approved.legible.start dated)
  all_goals rw [Phase.start]; split <;> rfl

theorem complete (approved : b.Approves name p) (dated : now.Proper) :
    b.Approves name (p.complete now) := by
  apply approved.of_same (approved.legible.complete dated)
  all_goals rw [Phase.complete]; split <;> rfl

theorem fail (approved : b.Approves name p) (dated : now.Proper) : b.Approves name (p.fail now) :=
  approved.of_same (approved.legible.fail dated) rfl rfl rfl rfl

theorem reopen (approved : b.Approves name p) (dated : now.Proper) : b.Approves name (p.reopen now) :=
  approved.of_same (approved.legible.reopen dated) rfl rfl rfl rfl

theorem iterate (approved : b.Approves name p) (iterated : p.iterate = .ok q) : b.Approves name q := by
  have legible := approved.legible.iterate iterated
  have ⟨_, _, same⟩ := Except.bind_eq_ok.mp iterated
  cases same
  exact approved.of_same legible rfl rfl rfl rfl

end Blueprint.Approves

namespace Document.Valid

variable {d : Document} {name : String} {p q : Phase}

theorem approves (valid : d.Valid b) (there : d.phase name = .ok p) : b.Approves name p := by
  have ⟨entries, given, all⟩ := valid.passes
  have ⟨others, same, found⟩ := phase_eq_ok.mp there
  rw [given] at same
  cases same
  have member := Keyed.mem_of_find? found
  have ⟨held, plan, is, declared, passes⟩ := all _ member
  cases is
  have legible := valid.legible.phases
  rw [given, Slot.reads_phases] at legible
  exact ⟨p.read_nil_iff.mp (legible _ member), plan, declared, passes⟩

/-- Whether a phase is there can be told, and if it is it can be looked at. -/
theorem lists (valid : d.Valid b) (name : String) :
    d.phases.lists name = .ok false ∨ d.phases.lists name = .ok true ∧ ∃ p, d.phase name = .ok p := by
  obtain ⟨entries, given, all⟩ := valid.passes
  rw [given, Table.lists, Keyed.has]
  cases found : Keyed.find? entries name with
  | none => exact .inl rfl
  | some s =>
      obtain ⟨p, _, is, _⟩ := all _ (Keyed.mem_of_find? found)
      refine .inr ⟨rfl, p, phase_eq_ok.mpr ⟨entries, given, ?_⟩⟩
      rw [found, ← is]

theorem modifyPhase (valid : d.Valid b) (approved : b.Approves name q) :
    (d.modifyPhase name fun _ => q).Valid b := by
  obtain ⟨entries, given, all⟩ := valid.passes
  have legible := valid.legible.phases
  rw [given, Slot.reads_phases] at legible
  have modified : (d.modifyPhase name fun _ => q).phases =
      .proper (Keyed.modify entries name (Slot.map fun _ => q)) := by
    rw [Document.modifyPhase, given]
    rfl
  have replaced (entry : String × Slot Phase)
      (member : entry ∈ Keyed.modify entries name (Slot.map fun _ => q)) :
      entry ∈ entries ∨ entry = (name, .proper q) := by
    cases Keyed.mem_modify member with
    | inl old => exact .inl old
    | inr new =>
        obtain ⟨old, inside, same⟩ := new
        obtain ⟨p, _, is, _⟩ := all _ inside
        rw [show old = .proper p from is] at same
        exact .inr same
  constructor
  · refine { valid.legible with phases := ?_ }
    rw [modified, Slot.reads_phases]
    intro entry member
    cases replaced entry member with
    | inl old => exact legible entry old
    | inr new => exact new ▸ q.read_nil_iff.mpr approved.legible
  · refine ⟨_, modified, ?_⟩
    intro entry member
    cases replaced entry member with
    | inl old => exact all entry old
    | inr new =>
        obtain ⟨plan, declared, passes⟩ := approved.passes
        exact new ▸ ⟨q, plan, rfl, declared, passes⟩

theorem noted (valid : d.Valid b) {state : String} (named : state ≠ "") {now : Timestamp}
    (dated : now.Proper) :
    Document.Valid b { d with statechart := .proper (.noted state now) } :=
  ⟨{ valid.legible with statechart := Slot.reads_statechart named dated }, valid.passes⟩

theorem stamped (valid : d.Valid b) {now : Timestamp} (dated : now.Proper) :
    Document.Valid b { d with updatedAt := .proper now } :=
  ⟨{ valid.legible with updatedAt := Slot.reads_time _ dated }, valid.passes⟩

/-- Bringing a valid document up to date with a state leaves it valid. -/
theorem sync (valid : d.Valid b) {state : String} (named : state ≠ "") {now : Timestamp}
    (dated : now.Proper) {synced : Document} (done : d.sync now state = .ok synced) :
    synced.Valid b := by
  have ⟨current, _, same⟩ := Except.bind_eq_ok.mp done
  split at same
  · cases same
    exact valid
  · cases same
    exact valid.noted named dated

end Document.Valid

/-- A valid document that notes of the machine what another does. -/
structure Document.Follows (b : Blueprint) (d edited : Document) : Prop where
  valid : edited.Valid b
  noted : edited.statechart = d.statechart

theorem Document.Follows.trans {d middle edited : Document} (first : d.Follows b middle)
    (later : middle.Follows b edited) : d.Follows b edited :=
  ⟨later.valid, later.noted.trans first.noted⟩

namespace Edit

variable {α β : Type} {name : String} {now : Timestamp}

/-- An edit that leaves a valid document valid if it succeeds, and does not touch what is noted of the
machine. -/
def Safe (b : Blueprint) (edit : Edit α) : Prop :=
  ∀ d a edited, d.Valid b → edit d = (.ok a, edited) → d.Follows b edited

theorem safe_pure (a : α) : Safe b (pure a) := by
  intro d _ edited valid done
  cases done
  exact ⟨valid, rfl⟩

theorem safe_phase (name : String) : Safe b (phase name) := by
  intro d p edited valid done
  have same : d = edited := (Prod.mk.inj done).2
  exact same ▸ ⟨valid, rfl⟩

theorem safe_ite {c : Prop} [Decidable c] {first second : Edit α} (left : Safe b first)
    (right : Safe b second) : Safe b (if c then first else second) := by
  split
  · exact left
  · exact right

theorem Safe.bind {edit : Edit α} (first : Safe b edit) {next : α → Edit β}
    (later : ∀ a, Safe b (next a)) : Safe b (edit >>= next) := by
  intro d last edited valid done
  have ⟨a, middle, begun, ended⟩ := Attempt.bind_eq_ok.mp done
  have follows := first d a middle valid begun
  exact follows.trans (later a middle last edited follows.valid ended)

theorem changePhase_safe {change : Phase → Except Fault Phase}
    (each : ∀ p q, b.Approves name p → change p = .ok q → b.Approves name q) :
    Safe b (changePhase name change) := by
  intro d _ edited valid done
  have ⟨p, q, there, changed, same⟩ := changePhase_eq_ok.mp done
  rw [same]
  exact ⟨valid.modifyPhase (each p q (valid.approves there) changed), rfl⟩

theorem plainChange_safe {change : Phase → Phase}
    (each : ∀ p, b.Approves name p → b.Approves name (change p)) :
    Safe b (changePhase name fun p => .ok (change p)) := by
  apply changePhase_safe
  intro p q approved same
  cases same
  exact each p approved

theorem startPhase_safe (dated : now.Proper) (name : String) : Safe b (startPhase now name) :=
  plainChange_safe fun _ approved => approved.start dated

theorem reopenPhase_safe (dated : now.Proper) (name : String) : Safe b (reopenPhase now name) :=
  plainChange_safe fun _ approved => approved.reopen dated

theorem finishPhase_safe (dated : now.Proper) (failing : Option String) (name : String) :
    Safe b (finishPhase now failing name) := by
  rw [finishPhase]
  apply safe_ite
  · exact plainChange_safe fun _ approved => approved.fail dated
  · exact plainChange_safe fun _ approved => approved.complete dated

theorem iteratePhase_safe (name : String) : Safe b (iteratePhase name) := by
  apply Safe.bind
  · exact changePhase_safe fun _ _ approved iterated => approved.iterate iterated
  · exact fun _ => (safe_phase name).bind fun _ => safe_pure _

/-- A plain change succeeds wherever the phase is there. -/
theorem finishPhase_runs {d : Document} {p : Phase} (there : d.phase name = .ok p) (now : Timestamp)
    (failing : Option String) : ∃ edited, finishPhase now failing name d = (.ok (), edited) := by
  rw [finishPhase]
  split
  · exact ⟨_, run_changePhase there rfl⟩
  · exact ⟨_, run_changePhase there rfl⟩

/-- A safe edit of each of the named phases that are there does not fail on a valid document if it does not
fail on any of those. -/
theorem whereThere_safe {edit : String → Edit Unit} (safe : ∀ name, Safe b (edit name))
    (runs : ∀ name (d : Document) p, d.phase name = .ok p → ∃ edited, edit name d = (.ok (), edited))
    {d : Document} (valid : d.Valid b) (names : List String) :
    ∃ edited, whereThere edit names d = (.ok (), edited) ∧ d.Follows b edited := by
  refine Attempt.forM_keeps ?_ ⟨valid, rfl⟩
  intro name _ current follows
  rw [Attempt.run_bind_ok (Attempt.run_get _), Attempt.ofExcept_bind]
  cases follows.valid.lists name with
  | inl missing =>
      rw [missing]
      exact ⟨current, rfl, follows⟩
  | inr listed =>
      have ⟨known, p, there⟩ := listed
      have ⟨edited, done⟩ := runs name current p there
      rw [known]
      exact ⟨edited, done, follows.trans (safe name current () edited follows.valid done)⟩

/-- Bringing phases up to date after a transition does not fail on a valid document and leaves it valid. -/
theorem afterTransition_safe (dated : now.Proper) (source : String) (t : Transition) {d : Document}
    (valid : d.Valid b) :
    ∃ edited, afterTransition now b source t d = (.ok (), edited) ∧ d.Follows b edited := by
  rw [afterTransition]
  split
  · obtain ⟨ended, finished, follows⟩ := whereThere_safe (finishPhase_safe dated t.failedPhase)
      (fun _ _ _ there => finishPhase_runs there now t.failedPhase) valid (b.phasesEndingAt source)
    obtain ⟨started, begun, later⟩ := whereThere_safe (startPhase_safe dated)
      (fun _ _ _ there => ⟨_, run_changePhase there rfl⟩) follows.valid (b.phasesStartingAt t.target)
    rw [Attempt.run_bind_ok finished]
    exact ⟨started, begun, follows.trans later⟩
  · exact ⟨d, rfl, valid, rfl⟩

end Edit

end Lifecycle
