import Lifecycle.Proofs.Attempt
import Lifecycle.Proofs.Typed
import Lifecycle.Project.Advance
/-!
Editing phases. A document in which everything is what belongs in its place stays one and keeps its
phases, and nothing that happens to phases by themselves fails there. -/

namespace Lifecycle

namespace Keyed

variable {κ α β : Type} [DecidableEq κ]

theorem find?_map (change : α → β) (table : Keyed κ α) (k : κ) :
    find? (table.map fun entry => (entry.1, change entry.2)) k = (find? table k).map change := by
  induction table with
  | nil => rfl
  | cons entry rest ih =>
      rw [List.map_cons, find?, find?, ih]
      split <;> rfl

theorem find?_isSome (table : Keyed κ α) (k : κ) : (find? table k).isSome ↔ k ∈ keys table := by
  induction table with
  | nil => exact ⟨nofun, nofun⟩
  | cons entry rest ih =>
      rw [find?, keys_cons, List.mem_cons, ← ih]
      by_cases same : entry.1 = k
      · simp [same]
      · simp [same, Ne.symm same]

theorem modify_map (f : α → β) (g : α → α) (h : β → β) (same : ∀ a, h (f a) = f (g a))
    (table : Keyed κ α) (k : κ) :
    modify (table.map fun entry => (entry.1, f entry.2)) k h =
      (modify table k g).map fun entry => (entry.1, f entry.2) := by
  induction table with
  | nil => rfl
  | cons entry rest ih =>
      rw [List.map_cons, modify, modify, ih, same]
      split <;> rfl

theorem mem_modify {table : Keyed κ α} {k : κ} {f : α → α} {entry : κ × α}
    (member : entry ∈ modify table k f) :
    entry ∈ table ∨ ∃ old, (k, old) ∈ table ∧ entry = (k, f old) := by
  induction table with
  | nil => cases member
  | cons first rest ih =>
      rw [modify] at member
      by_cases same : first.1 = k
      · rw [if_pos same] at member
        rcases List.mem_cons.mp member with rfl | member
        · exact .inr ⟨first.2, same ▸ List.mem_cons_self, by rw [same]⟩
        · exact .inl (List.mem_cons_of_mem _ member)
      · rw [if_neg same] at member
        rcases List.mem_cons.mp member with rfl | member
        · exact .inl List.mem_cons_self
        · rcases ih member with member | ⟨old, inside, rfl⟩
          · exact .inl (List.mem_cons_of_mem _ member)
          · exact .inr ⟨old, List.mem_cons_of_mem _ inside, rfl⟩

end Keyed

theorem Table.modify_ofEntries {α : Type} (name : String) (change : α → α)
    (entries : List (String × α)) :
    (Table.ofEntries entries).modify name change = .ofEntries (Keyed.modify entries name change) :=
  congrArg Slot.proper
    (Keyed.modify_map Slot.proper change (Slot.map change) (fun _ => rfl) entries name)

variable {condition : Condition}

namespace Phase

theorem start_typed {p : Phase} (typed : p.Typed condition) {now : Timestamp} (proper : now.Proper) :
    (p.start now).Typed condition := by
  rw [start]
  split
  · exact { typed with
      status := True.intro
      startedAt := fun _ same => Option.some.inj same ▸ proper }
  · exact typed

theorem complete_typed {p : Phase} (typed : p.Typed condition) {now : Timestamp}
    (proper : now.Proper) : (p.complete now).Typed condition := by
  rw [complete]
  split
  · exact typed
  · exact { typed with
      status := True.intro
      completedAt := fun _ same => Option.some.inj same ▸ proper }

theorem fail_typed {p : Phase} (typed : p.Typed condition) {now : Timestamp} (proper : now.Proper) :
    (p.fail now).Typed condition :=
  { typed with
    status := True.intro
    failedAt := fun _ same => Option.some.inj same ▸ proper }

end Phase

namespace Document

/-- A document is still typed and has the phases that another has. -/
def Keeps (condition : Condition) (d edited : Document) : Prop :=
  edited.Typed condition ∧ edited.phaseNames = d.phaseNames

end Document

namespace Edit

/-- A change of phases that leaves them typed does not fail. -/
theorem changePhase_keeps {d : Document} (typed : d.Typed condition) {name : String}
    (listed : name ∈ d.phaseNames) {change : Phase → Phase}
    (good : ∀ p : Phase, p.Typed condition → (change p).Typed condition) :
    ∃ edited, changePhase name (fun p => .ok (change p)) d = (.ok (), edited) ∧
      d.Keeps condition edited := by
  obtain ⟨phases, given, distinct, all⟩ := typed.phases.elim
  rw [Document.phaseNames_eq given, ← Keyed.find?_isSome, Option.isSome_iff_exists] at listed
  obtain ⟨p, found⟩ := listed
  have asked : d.phase name = .ok p := by
    rw [Document.phase, Document.phase?, given]
    simp only [Table.ofEntries, Slot.having, bind, Except.bind, Keyed.find?_map, found, Option.map,
      Except.map, pure, Except.pure]
  have changed : changePhase name (fun p => .ok (change p)) d =
      (.ok (), d.modifyPhase name fun _ => change p) := by
    rw [changePhase, Attempt.run_bind, phase, asked]
    rfl
  have modified : (d.modifyPhase name fun _ => change p).phases =
      .ofEntries (Keyed.modify phases name fun _ => change p) := by
    rw [Document.modifyPhase, given, Table.modify_ofEntries]
  refine ⟨_, changed, ?_, ?_⟩
  · refine { typed with phases := ?_ }
    rw [modified, Table.holds_ofEntries, Keyed.Distinct, Keyed.keys_modify]
    refine ⟨distinct, ?_⟩
    intro entry member
    rcases Keyed.mem_modify member with member | ⟨old, _, rfl⟩
    · exact all entry member
    · exact good p (all _ (Keyed.mem_of_find? found))
  · rw [Document.phaseNames_eq given, Document.phaseNames_eq modified, Keyed.keys_modify]

/-- An edit that keeps any typed document with the phase it edits keeps it for phases that are
there. -/
theorem whereThere_keeps {d : Document} (typed : d.Typed condition) {edit : String → Edit Unit}
    (each : ∀ name (d : Document), d.Typed condition → name ∈ d.phaseNames →
      ∃ edited, edit name d = (.ok (), edited) ∧ d.Keeps condition edited) (names : List String) :
    ∃ edited, whereThere edit names d = (.ok (), edited) ∧ d.Keeps condition edited := by
  refine Attempt.forM_keeps ?_ ⟨typed, rfl⟩
  intro name _ current kept
  obtain ⟨phases, given, _⟩ := kept.1.phases.elim
  have asked : current.phases.lists name = .ok (decide (name ∈ current.phaseNames)) := by
    rw [Document.phaseNames_eq given, given, Table.ofEntries, Table.lists, Keyed.has, Keyed.find?_map,
      Option.isSome_map]
    simp only [← Keyed.find?_isSome, Bool.decide_eq_true]
  rw [Attempt.run_bind_ok (Attempt.run_get _), Attempt.ofExcept_bind, asked]
  by_cases listed : name ∈ current.phaseNames
  · obtain ⟨edited, done, typed, names⟩ := each name current kept.1 listed
    refine ⟨edited, ?_, typed, names.trans kept.2⟩
    simp only [listed, decide_true, if_true]
    exact done
  · refine ⟨current, ?_, kept⟩
    simp only [listed, decide_false, Bool.false_eq_true, if_false]
    rfl

theorem startPhases_keeps {d : Document} (typed : d.Typed condition) {now : Timestamp}
    (proper : now.Proper) (names : List String) :
    ∃ edited, startPhases now names d = (.ok (), edited) ∧ d.Keeps condition edited :=
  whereThere_keeps typed (fun _ _ typed listed =>
    changePhase_keeps typed listed fun _ typed => Phase.start_typed typed proper) names

/-- Bringing phases up to date after a transition never fails on a typed document. -/
theorem afterTransition_keeps {d : Document} (typed : d.Typed condition) {now : Timestamp}
    (proper : now.Proper) (b : Blueprint) (source : String) (t : Transition) :
    ∃ edited, afterTransition now b source t d = (.ok (), edited) ∧ d.Keeps condition edited := by
  rw [afterTransition]
  by_cases moves : source ≠ t.target
  · rw [if_pos moves]
    have finishes (name : String) (d : Document) (typed : d.Typed condition)
        (listed : name ∈ d.phaseNames) :
        ∃ edited, finishPhase now t.failedPhase name d = (.ok (), edited) ∧
          d.Keeps condition edited := by
      rw [finishPhase]
      split
      · exact changePhase_keeps typed listed fun _ typed => Phase.fail_typed typed proper
      · exact changePhase_keeps typed listed fun _ typed => Phase.complete_typed typed proper
    obtain ⟨ended, done, endedTyped, sameNames⟩ :=
      whereThere_keeps typed finishes (b.phasesEndingAt source)
    obtain ⟨started, last, startedTyped, sameAgain⟩ :=
      startPhases_keeps endedTyped proper (b.phasesStartingAt t.target)
    rw [Attempt.run_bind_ok done]
    exact ⟨started, last, startedTyped, sameAgain.trans sameNames⟩
  · rw [if_neg moves]
    exact ⟨d, rfl, typed, rfl⟩

end Edit

end Lifecycle
