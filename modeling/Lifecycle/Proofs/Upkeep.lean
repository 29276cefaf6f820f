import Lifecycle.Proofs.Creation
/-!
The phases of a project that is created and moved: a new project has fresh ones, and after a move those
that it has are up to date, whether it was stored or not. -/

namespace Lifecycle

variable {σ : Type} [Backend σ] {names : List String} {now : Timestamp}

/-- Phases that begin or end somewhere are those of the type. -/
theorem Blueprint.phasesWhere_listed {b : Blueprint} (listed : ∀ entry ∈ b.phases, entry.1 ∈ names)
    (test : PhasePlan → Bool) : ∀ name ∈ b.phasesWhere test, name ∈ names := by
  intro name member
  obtain ⟨entry, kept, rfl⟩ := List.mem_map.mp member
  exact listed entry (List.mem_of_mem_filter kept)

/-- A new project of a type that fills in its phases: they are there, and those that begin where the
machine does have started. -/
theorem Project.created_shows {registry : Registry} {r : Request} {archive after : Archive σ}
    {p : Project} (made : create registry now r archive = (.ok p, after))
    (fills : p.blueprint.initializer = some (.phases names))
    (listed : ∀ entry ∈ p.blueprint.phases, entry.1 ∈ names) :
    p.machine = .start p.blueprint p.blueprint.initial ∧
      ∃ fresh : String → Phase, (∀ name, ∃ artifacts, fresh name = Phase.fresh now artifacts) ∧
        p.document.Shows names (Edit.changeAll (fun _ => Phase.start now)
          (p.blueprint.phasesStartingAt p.blueprint.initial) fresh) := by
  obtain ⟨b, d, filled, started, _, empty, initialized, begun, machine, same⟩ := create_ok made
  obtain rfl : p.blueprint = b := congrArg Machine.blueprint machine
  refine ⟨machine, ?_⟩
  rw [Blueprint.initialized, fills] at initialized
  simp only at initialized
  rcases run : Initializer.phases names now r.inputs d with ⟨fault | ⟨⟩, other⟩
  · rw [run] at initialized
    cases initialized
  · rw [run] at initialized
    cases initialized
    obtain ⟨entries, given, each, _⟩ := Initializer.phases_fresh empty run
    have named (name : String) : ∃ phase, (∃ artifacts, phase = Phase.fresh now artifacts) ∧
        (name ∈ names → filled.phase name = .ok phase) := by
      by_cases there : name ∈ names
      · obtain ⟨artifacts, found⟩ := each name there
        exact ⟨_, ⟨artifacts, rfl⟩, fun _ => Document.phase_eq_ok.mpr ⟨entries, given, found⟩⟩
      · exact ⟨_, ⟨[], rfl⟩, fun here => absurd here there⟩
    choose fresh isFresh shows using named
    refine ⟨fresh, isFresh, ?_⟩
    obtain ⟨edited, done, editedShows⟩ := Edit.whereThere_shows (Edit.startPhase now)
      (fun _ => Phase.start now) (fun _ _ _ member shows => Edit.changePhase_shows shows member rfl)
      (Blueprint.phasesWhere_listed listed _) shows
    rw [Edit.result, Edit.startPhases, Blueprint.phasesStartingAt, done] at begun
    cases begun
    exact editedShows.of_phases_eq same

/-- After a move the phases are up to date, whether it was stored or not. -/
theorem Desk.settle_shows (now : Timestamp) (source : String) (t : Transition) (desk : Desk σ)
    {phases : String → Phase} (listed : ∀ entry ∈ desk.project.blueprint.phases, entry.1 ∈ names)
    (shows : desk.project.document.Shows names phases) :
    (∃ edited, Edit.afterTransition now desk.project.blueprint source t desk.project.document =
      (.ok (), edited)) ∧
    (settle now source t desk).2.project.document.Shows names
      (Edit.broughtUp now desk.project.blueprint source t phases) := by
  obtain ⟨edited, done, editedShows⟩ := Edit.afterTransition_shows now desk.project.blueprint source t
    (Blueprint.phasesWhere_listed listed _) (Blueprint.phasesWhere_listed listed _) shows
  refine ⟨⟨edited, done⟩, ?_⟩
  rw [run_settle done]
  exact editedShows.of_phases_eq (keep_phases now (desk.withDocument edited))

end Lifecycle
