import Lifecycle.Proofs.Coherent
import Lifecycle.Proofs.Drafts
import Lifecycle.Proofs.Standard.Routes
/-!
The table of a machine beside the transitions of its type. A table keeps the last of the transitions that one
event fires in one state, and the type finds the first; in a type that was accepted there is only one, so
that they agree in every state and nothing that was declared is lost. -/

namespace Lifecycle

namespace Machine

/-- Accepted or not, a type has its event fire the last transition that was declared for it. -/
theorem find?_tabulate (ts : List Transition) (state event : String) :
    Keyed.find? (tabulate ts) (state, event) =
      ts.reverse.find? fun t => t.source = state && t.event = event := by
  rw [tabulate, Keyed.find?_ofList, ← List.map_reverse]
  exact find?_tabulated ts.reverse state event

theorem keys_tabulate_subset (ts : List Transition) :
    Keyed.keys (tabulate ts) ⊆ ts.map Transition.trigger := by
  intro key member
  obtain ⟨t, found⟩ := Option.isSome_iff_exists.mp (Keyed.has_iff.mpr member)
  obtain ⟨u, declared, same⟩ := List.mem_map.mp (Keyed.mem_of_find?_ofList found)
  exact List.mem_map.mpr ⟨u, declared, congrArg Prod.fst same⟩

/-- No transition takes the place of another exactly if nothing fires two of them. -/
theorem length_tabulate_eq_iff {ts : List Transition} :
    (tabulate ts).length = ts.length ↔ (ts.map Transition.trigger).Nodup := by
  constructor
  · intro whole
    have distinct : (Keyed.keys (tabulate ts)).Nodup := Keyed.distinct_ofList _
    have few : (ts.map Transition.trigger).length ≤ (Keyed.keys (tabulate ts)).length := by
      rw [Keyed.keys, List.length_map, List.length_map, whole]
    have same := (List.subperm_of_subset distinct (keys_tabulate_subset ts)).perm_of_length_le few
    exact same.nodup_iff.mp distinct
  · intro distinct
    rw [tabulate_eq distinct, List.length_map]

end Machine

namespace Project

variable {b : Blueprint} {p : Project}

/-- A project with a machine for a type, which was started in any state there may be and to which events were
given since, whatever they came to, while anything happened to the document. -/
inductive Driven (b : Blueprint) : Project → Prop where
  | started (d : Document) (state : String) : Driven b (.start b d state)
  | edited {p : Project} (driven : Driven b p) (d : Document) : Driven b { p with document := d }
  | fired {p : Project} (driven : Driven b p) (now : Timestamp) (event : String) :
      Driven b (fire now event p).2

theorem Driven.machine (driven : Driven b p) : p.machine = .start b p.state := by
  induction driven with
  | started d state => rfl
  | edited _ d ih => exact ih
  | fired _ now event ih =>
      obtain ⟨state, there⟩ := fire_machine now ih event
      exact there.trans (congrArg (Machine.start b) (congrArg Machine.state there).symm)

/-- The machine of a type that was accepted has every transition of the type in its table, each of them once.
Wherever the project stands, in a state of the type or not, the machine lists those that the type declares
to leave the state, in their order, and for an event it has the one that the type has, or refuses the event
for want of one. What a transition asks and does is its own affair: guard and actions are those declared, and
are given the project when they are asked and run. -/
theorem table_agrees {draft : Draft} (built : draft.build = .ok b) (driven : Driven b p) :
    p.machine.table.length = b.transitions.length ∧
      (∀ t ∈ b.transitions, Keyed.find? p.machine.table t.trigger = some t) ∧
      p.machine.transitions = b.transitionsFrom p.state ∧
      ∀ event, p.machine.lookup event = b.findTransition? p.state event ∧
        p.machine.transition event =
          match b.findTransition? p.state event with
          | some t => .ok t
          | none =>
            .error (.notConfigured p.state event ((b.transitionsFrom p.state).map Transition.event)) := by
  have distinct := Draft.build_distinct built
  have table : p.machine.table = Machine.tabulate b.transitions := by
    rw [driven.machine]
    rfl
  have leaving : p.machine.transitions = b.transitionsFrom p.state := by
    rw [driven.machine, Machine.transitions_start distinct]
  have found (event : String) : p.machine.lookup event = b.findTransition? p.state event := by
    rw [driven.machine, Machine.lookup_start distinct]
  refine ⟨?_, ?_, leaving, fun event => ⟨found event, ?_⟩⟩
  · rw [table]
    exact Machine.length_tabulate_eq_iff.mpr distinct
  · intro t declared
    have once : Keyed.Distinct (Machine.tabulate b.transitions) := Keyed.distinct_ofList _
    rw [table, Keyed.find?_eq_some_iff once, Machine.tabulate_eq distinct]
    exact List.mem_map.mpr ⟨t, declared, rfl⟩
  · rw [Machine.transition, found, leaving]
    rfl

/-- The two transitions of a branch in their order, and none in a state that is not of the type. -/
theorem table_agrees_standard :
    (start Standard.blueprint (.sample []) "ReviewActive").machine.transitions =
        [Standard.failReview, Standard.passReview] ∧
      (start Standard.blueprint (.sample []) "ReviewActive").machine.lookup "review_pass" =
        some Standard.passReview ∧
      (start Standard.blueprint (.sample []) "Elsewhere").machine.table.length = 9 ∧
      (start Standard.blueprint (.sample []) "Elsewhere").machine.lookup "review_pass" = none := by
  obtain ⟨_, _, leaving, reviewing⟩ :=
    table_agrees Standard.build_draft (.started (.sample []) "ReviewActive")
  obtain ⟨whole, _, _, elsewhere⟩ :=
    table_agrees Standard.build_draft (.started (.sample []) "Elsewhere")
  refine ⟨?_, ?_, ?_, ?_⟩
  · rw [leaving, Standard.blueprint_eq]
    rfl
  · rw [(reviewing "review_pass").1, Standard.blueprint_eq]
    rfl
  · rw [whole, Standard.blueprint_eq]
    rfl
  · rw [(elsewhere "review_pass").1, Standard.blueprint_eq]
    rfl

end Project

end Lifecycle
