import Lifecycle.Blueprint.Initializer
import Lifecycle.Proofs.Firing
import Lifecycle.Proofs.Present
/-!
New projects: their phases are fresh but for the inputs they are given, and those that begin where the
machine does have started. -/

namespace Lifecycle

open Attempt (Leaves)

theorem Initializer.phases_cons_eq_ok {name : String} {rest : List String} {now : Timestamp}
    {inputs : Value} {d filled : Document} {before : Keyed String (Slot Phase)}
    (given : d.phases = .proper before)
    (done : Initializer.phases (name :: rest) now inputs d = (.ok (), filled)) :
    ∃ artifacts middle,
      middle.phases = .proper (Keyed.put before name (.proper (Phase.fresh now artifacts))) ∧
      Initializer.phases rest now inputs middle = (.ok (), filled) := by
  change (_ >>= fun _ => Initializer.phases rest now inputs) d = _ at done
  obtain ⟨⟨⟩, middle, first, later⟩ := Attempt.bind_eq_ok.mp done
  beta_reduce at first
  rw [Attempt.ofExcept_bind] at first
  rcases named : Initializer.phases.given inputs name with fault | source
  · rw [named] at first
    cases first
  · rw [named] at first
    simp only at first
    rw [Attempt.bind_eq_ok] at first
    obtain ⟨artifacts, same, read, first⟩ := first
    have quiet : Leaves id (source.mapM fun v =>
        (Attempt.ofExcept (Artifact.read now v).result : Edit Artifact)) :=
      Leaves.mapM (fun _ => Attempt.leaves_ofExcept _) source
    obtain rfl : same = d := by
      have still := quiet d
      rw [read] at still
      exact still
    rw [Attempt.run_bind_ok (Attempt.run_get _), Attempt.ofExcept_bind, given] at first
    cases first
    exact ⟨artifacts, _, rfl, later⟩

/-- Each of the named phases is there and fresh, and the others are as they were. -/
theorem Initializer.phases_fresh {names : List String} {now : Timestamp} {inputs : Value}
    {d filled : Document} {before : Keyed String (Slot Phase)} (given : d.phases = .proper before)
    (done : Initializer.phases names now inputs d = (.ok (), filled)) :
    ∃ after, filled.phases = .proper after ∧
      (∀ name ∈ names, ∃ artifacts,
        Keyed.find? after name = some (.proper (Phase.fresh now artifacts))) ∧
      ∀ name ∉ names, Keyed.find? after name = Keyed.find? before name := by
  induction names generalizing d before with
  | nil =>
      cases done
      exact ⟨before, given, nofun, fun _ _ => rfl⟩
  | cons first rest ih =>
      obtain ⟨artifacts, middle, put, later⟩ := phases_cons_eq_ok given done
      obtain ⟨after, filled, fresh, others⟩ := ih put later
      refine ⟨after, filled, ?_, ?_⟩
      · intro name listed
        by_cases again : name ∈ rest
        · exact fresh name again
        · obtain rfl : name = first := by
            rcases List.mem_cons.mp listed with same | listed
            · exact same
            · exact absurd listed again
          refine ⟨artifacts, ?_⟩
          rw [others name again, Keyed.find?_put, if_pos rfl]
      · intro name unlisted
        rw [others name fun listed => unlisted (List.mem_cons_of_mem _ listed), Keyed.find?_put,
          if_neg fun same : first = name => unlisted (same ▸ List.mem_cons_self)]

/-- A draft has no phases and is of the type that was asked for. -/
theorem Request.draftDocument_ok {r : Request} {now : Timestamp} {name initial : String} {d : Document}
    (drafted : r.draftDocument now name initial = .ok d) :
    d.phases = .empty ∧ d.type = .proper r.typeName ∧
      ∀ condition, now.Proper → d.Typed condition := by
  rw [draftDocument] at drafted
  split at drafted
  · cases drafted
    refine ⟨rfl, rfl, fun condition proper => ?_⟩
    exact {
      name := True.intro
      type := True.intro
      branch := True.intro
      description := True.intro
      createdAt := proper
      updatedAt := proper
      phases := ⟨List.nodup_nil, List.forall_mem_nil _⟩
      statechart := ⟨True.intro, proper⟩
      agentSessions := ⟨List.nodup_nil, List.forall_mem_nil _⟩ }
  · cases drafted

namespace Project

variable {σ : Type} [Backend σ] {registry : Registry} {now : Timestamp} {r : Request}

theorem new_ok {p : Project} (made : Project.new registry now r = .ok p) :
    ∃ b name d filled started, registry.get r.typeName = .ok b ∧
      r.draftDocument now name b.initial = .ok d ∧ b.initialized now r.inputs d = .ok filled ∧
      (Edit.startPhases now (b.phasesStartingAt b.initial)).result filled = .ok started ∧
      p = .start b started b.initial := by
  obtain ⟨b, known, made⟩ := Except.bind_eq_ok.mp made
  obtain ⟨name, _, made⟩ := Except.bind_eq_ok.mp made
  obtain ⟨d, drafted, made⟩ := Except.bind_eq_ok.mp made
  obtain ⟨filled, initialized, made⟩ := Except.bind_eq_ok.mp made
  obtain ⟨started, begun, made⟩ := Except.bind_eq_ok.mp made
  cases made
  exact ⟨b, name, d, filled, started, known, drafted, initialized, begun, rfl⟩

/-- What was made and stored: a document without phases that the type asked for has filled in, its first
phases started. -/
theorem create_ok {archive after : Archive σ} {p : Project}
    (made : create registry now r archive = (.ok p, after)) :
    ∃ b d filled started, registry.get r.typeName = .ok b ∧ d.phases = .empty ∧
      b.initialized now r.inputs d = .ok filled ∧
      (Edit.startPhases now (b.phasesStartingAt b.initial)).result filled = .ok started ∧
      p.machine = .start b b.initial ∧ p.document.phases = started.phases := by
  rw [create, Attempt.ofExcept_bind] at made
  rcases created : Project.new registry now r with fault | fresh
  · rw [created] at made
    cases made
  · rw [created] at made
    simp only at made
    obtain ⟨b, _, d, filled, started, known, drafted, initialized, begun, rfl⟩ := new_ok created
    have empty := (Request.draftDocument_ok drafted).1
    have machine := Desk.save_machine now ⟨Project.start b started b.initial, archive⟩
    have phases := Desk.save_phases now ⟨Project.start b started b.initial, archive⟩
    rcases saved : Desk.save now ⟨Project.start b started b.initial, archive⟩ with
      ⟨fault | ⟨⟩, desk⟩
    · rw [saved] at made
      cases made
    · rw [saved] at made machine phases
      cases made
      exact ⟨b, d, filled, started, known, empty, initialized, begun, machine, phases⟩

end Project

end Lifecycle
