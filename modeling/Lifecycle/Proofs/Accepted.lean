import Lifecycle.Blueprint.Draft
import Lifecycle.Machine
import Lifecycle.Proofs.Attempt
import Lifecycle.Proofs.Data
import Mathlib.Data.List.Nodup
/-!
Types that were accepted. Nothing fires two transitions from one state, so the table of a machine holds
the transitions of its type, each of them and in their order. -/

namespace Lifecycle

/-- What fires a transition: an event, in the state that it leaves. -/
def Transition.trigger (t : Transition) : String × String := (t.source, t.event)

namespace Draft

variable {d : Draft}

private theorem refused_eq_ok {condition : Prop} [Decidable condition] {text : String}
    {rest : Except Fault Unit} :
    (if condition then d.fault text else rest) = .ok () ↔ ¬condition ∧ rest = .ok () := by
  split
  · next refused => exact ⟨nofun, fun both => absurd refused both.1⟩
  · next passed => exact (and_iff_right passed).symm

/-- What is asked of a branch by itself: it chooses, and it has routes, each of them for a value. -/
def Complete (b : Branch) : Prop :=
  b.discriminator.isSome ∧ b.routes ≠ [] ∧ Keyed.has b.routes "" = false

theorem checkBranch_eq_ok {seen : List String} {b : Branch} :
    d.checkBranch seen b = .ok () ↔
      Complete b ∧ b.source ∉ seen ∧ Keyed.has d.determiners b.source = false := by
  simp only [checkBranch, branchFault, refused_eq_ok, Complete, Option.isNone_iff_eq_none,
    List.isEmpty_iff, Bool.not_eq_true, Option.isSome_iff_ne_none, ne_eq, and_true, and_assoc]

theorem checkBranches_eq_ok {seen : List String} {bs : List Branch} :
    d.checkBranches seen bs = .ok () ↔
      (∀ b ∈ bs, Complete b ∧ Keyed.has d.determiners b.source = false) ∧
        (bs.map Branch.source).Nodup ∧ ∀ b ∈ bs, b.source ∉ seen := by
  induction bs generalizing seen with
  | nil => simp [checkBranches]
  | cons b rest ih =>
      have others : (∀ c ∈ rest, c.source ∉ b.source :: seen) ↔
          b.source ∉ rest.map Branch.source ∧ ∀ c ∈ rest, c.source ∉ seen := by
        simp only [List.mem_cons, not_or, forall_and, List.mem_map, not_exists, not_and]
      have first : d.checkBranches seen (b :: rest) = .ok () ↔
          d.checkBranch seen b = .ok () ∧ d.checkBranches (b.source :: seen) rest = .ok () := by
        rw [checkBranches, Except.bind_eq_ok]
        exact ⟨fun ⟨_, done, later⟩ => ⟨done, later⟩, fun ⟨done, later⟩ => ⟨(), done, later⟩⟩
      rw [first, checkBranch_eq_ok, ih, others, List.map_cons, List.nodup_cons, List.forall_mem_cons,
        List.forall_mem_cons]
      tauto

theorem checkTransitions_eq_ok {initial : String} {reached : List String} {ts : List Transition}
    {declared : List (String × String)} :
    d.checkTransitions initial reached ts declared = .ok () ↔
      (ts.map Transition.trigger).Nodup ∧ (∀ t ∈ ts, t.trigger ∉ declared) ∧
        ∀ t ∈ ts, t.source ∈ reached := by
  induction ts generalizing declared with
  | nil => simp [checkTransitions]
  | cons t rest ih =>
      have others : (∀ u ∈ rest, u.trigger ∉ t.trigger :: declared) ↔
          t.trigger ∉ rest.map Transition.trigger ∧ ∀ u ∈ rest, u.trigger ∉ declared := by
        simp only [List.mem_cons, not_or, forall_and, List.mem_map, not_exists, not_and]
      rw [checkTransitions, refused_eq_ok, refused_eq_ok, not_not, ih, ← Transition.trigger, others,
        List.map_cons, List.nodup_cons, List.forall_mem_cons, List.forall_mem_cons]
      tauto

/-- What is accepted is the type that the calls describe, from the initial state that they set. -/
theorem build_eq_ok {b : Blueprint} :
    d.build = .ok b ↔ ∃ initial, d.initial = some initial ∧ initial ≠ "" ∧
      d.checkBranches [] d.branches = .ok () ∧
      d.checkTransitions initial (reachable d.transitions initial) d.transitions [] = .ok () ∧
      b = d.blueprint initial := by
  unfold build
  split
  · next missing => simp [missing, fault]
  · next empty => simp [empty, fault]
  · next initial named given =>
    rw [given]
    constructor
    · intro built
      obtain ⟨_, branches, rest⟩ := Except.bind_eq_ok.mp built
      obtain ⟨_, transitions, same⟩ := Except.bind_eq_ok.mp rest
      exact ⟨initial, rfl, named, branches, transitions,
        (Except.ok.inj same).symm⟩
    · rintro ⟨other, same, _, branches, transitions, rfl⟩
      obtain rfl := Option.some.inj same
      exact Except.bind_eq_ok.mpr ⟨(), branches, Except.bind_eq_ok.mpr ⟨(), transitions, rfl⟩⟩

theorem build_eq (initial : String) (given : d.initial = some initial) (named : initial ≠ "")
    (branches : d.checkBranches [] d.branches = .ok ())
    (transitions : d.checkTransitions initial (reachable d.transitions initial) d.transitions [] =
      .ok ()) : d.build = .ok (d.blueprint initial) :=
  build_eq_ok.mpr ⟨initial, given, named, branches, transitions, rfl⟩

theorem build_distinct {b : Blueprint} (built : d.build = .ok b) :
    (b.transitions.map Transition.trigger).Nodup := by
  obtain ⟨initial, _, _, _, accepted, rfl⟩ := build_eq_ok.mp built
  exact (checkTransitions_eq_ok.mp accepted).1

end Draft

namespace Machine

theorem transition_eq_ok {m : Machine} {event : String} {t : Transition} :
    m.transition event = .ok t ↔ m.lookup event = some t := by
  rw [transition]
  cases m.lookup event with
  | none => exact ⟨nofun, nofun⟩
  | some other => rw [Except.ok.injEq, Option.some.injEq]

theorem tabulate_eq {ts : List Transition} (distinct : (ts.map Transition.trigger).Nodup) :
    tabulate ts = ts.map fun t => (t.trigger, t) := by
  apply Keyed.ofList_eq
  rw [Keyed.Distinct, Keyed.keys, List.map_map]
  exact distinct

variable {b : Blueprint}

theorem transitions_start (distinct : (b.transitions.map Transition.trigger).Nodup) (state : String) :
    (start b state).transitions = b.transitionsFrom state := by
  rw [transitions, start, tabulate_eq distinct, List.filter_map, List.map_map,
    Blueprint.transitionsFrom]
  exact List.map_id _

theorem find?_tabulated (ts : List Transition) (state event : String) :
    Keyed.find? (ts.map fun t => (t.trigger, t)) (state, event) =
      ts.find? fun t => t.source = state && t.event = event := by
  induction ts with
  | nil => rfl
  | cons t rest ih =>
      rw [List.map_cons, Keyed.find?, List.find?_cons, ih]
      by_cases fires : t.source = state ∧ t.event = event
      · obtain ⟨rfl, rfl⟩ := fires
        simp [Transition.trigger]
      · have other : t.trigger ≠ (state, event) := fun same => fires (Prod.mk.inj same)
        rw [if_neg other]
        have refused : (decide (t.source = state) && decide (t.event = event)) = false := by
          rw [← Bool.not_eq_true, Bool.and_eq_true, decide_eq_true_iff, decide_eq_true_iff]
          exact fires
        rw [refused]

theorem lookup_start (distinct : (b.transitions.map Transition.trigger).Nodup)
    (state event : String) : (start b state).lookup event = b.findTransition? state event := by
  rw [lookup, start, tabulate_eq distinct, find?_tabulated, Blueprint.findTransition?]

/-- What an event fires is among the transitions that leave the state. -/
theorem lookup_eq_some_iff (distinct : (b.transitions.map Transition.trigger).Nodup)
    {state event : String} {t : Transition} :
    (start b state).lookup event = some t ↔ t ∈ b.transitionsFrom state ∧ t.event = event := by
  rw [lookup_start distinct, Blueprint.findTransition?, Blueprint.transitionsFrom, List.mem_filter]
  constructor
  · intro found
    have fires := List.find?_some found
    rw [Bool.and_eq_true, decide_eq_true_iff, decide_eq_true_iff] at fires
    exact ⟨⟨List.mem_of_find?_eq_some found, decide_eq_true fires.1⟩, fires.2⟩
  · rintro ⟨⟨member, leaves⟩, rfl⟩
    have leaves := of_decide_eq_true leaves
    obtain ⟨other, found⟩ := Option.isSome_iff_exists.mp
      (List.find?_isSome.mpr ⟨t, member, by simp [leaves]⟩ :
        (b.transitions.find? fun u => u.source = state && u.event = t.event).isSome)
    have fires := List.find?_some found
    rw [Bool.and_eq_true, decide_eq_true_iff, decide_eq_true_iff] at fires
    have same : other.trigger = t.trigger := Prod.ext (fires.1.trans leaves.symm) fires.2
    rw [found, List.inj_on_of_nodup_map distinct (List.mem_of_find?_eq_some found) member same]

end Machine

end Lifecycle
