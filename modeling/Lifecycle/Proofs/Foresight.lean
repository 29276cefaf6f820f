import Lifecycle.Proofs.Firing
import Lifecycle.Proofs.Standard.Routes
import Mathlib.Data.List.Forall2
import Mathlib.Data.List.TFAE
import Mathlib.Tactic.TFAE
/-!
Looking ahead. Discovery, a dry run and what a machine says of an event agree with what firing the event
does, in every state and whatever the guards answer. -/

namespace Lifecycle

theorem List.mapM_eq_ok {ε α β : Type} {f : α → Except ε β} {g : α → β} {list : List α}
    (each : ∀ a ∈ list, f a = .ok (g a)) : list.mapM f = .ok (list.map g) := by
  induction list with
  | nil => rfl
  | cons a rest ih =>
      rw [List.mapM_cons, each a List.mem_cons_self, ih fun b member =>
        each b (List.mem_cons_of_mem _ member)]
      rfl

theorem List.filterM_eq_ok {ε α : Type} {f : α → Except ε Bool} {g : α → Bool} {list : List α}
    (each : ∀ a ∈ list, f a = .ok (g a)) : list.filterM f = .ok (list.filter g) := by
  have go (done : List α) : list.filterAuxM f done = .ok ((list.filter g).reverse ++ done) := by
    induction list generalizing done with
    | nil => rfl
    | cons a rest ih =>
        have later := ih fun b member => each b (List.mem_cons_of_mem _ member)
        rw [List.filterAuxM, each a List.mem_cons_self, List.filter_cons]
        cases g a with
        | false => exact later done
        | true =>
            rw [if_pos rfl, List.reverse_cons, List.append_assoc]
            exact later (a :: done)
  rw [List.filterM, go, List.append_nil]
  exact congrArg Except.ok (List.reverse_reverse _)

/-- There is always something said of what blocks a transition. -/
theorem Transition.blockReason_ne (t : Transition) : t.blockReason ≠ "" := by
  rw [blockReason]
  split
  · decide
  · next given => exact given

namespace Machine

variable {m : Machine} {d : Document} {event : String} {t : Transition}

theorem canFire_of_lookup (found : m.lookup event = some t) : m.canFire d event = m.passes d t := by
  rw [canFire, found]

theorem blockedReason_of_lookup (found : m.lookup event = some t) :
    m.blockedReason d event = m.blockOf d t := by
  rw [blockedReason, transition_eq_ok.mpr found]
  rfl

theorem blockOf_of_passes {passed : Bool} (asked : m.passes d t = .ok passed) :
    m.blockOf d t = .ok (if passed then none else some t.blockReason) := by
  rw [blockOf, asked]
  rfl

/-- A guard that answers has its answer taken, and without a guard nothing blocks. -/
theorem passes_of_answers (answers : ∀ g ∈ t.guard, ∃ passed, g.test (m.sight d) = .ok passed) :
    ∃ passed, m.passes d t = .ok passed := by
  rw [passes]
  cases guard : t.guard with
  | none => exact ⟨true, rfl⟩
  | some g =>
      obtain ⟨passed, asked⟩ := answers g guard
      exact ⟨passed, by simp only [asked]⟩

theorem passes_of_raises {g : Guard} {cause : Fault} (guard : t.guard = some g)
    (raised : g.test (m.sight d) = .error cause) :
    m.passes d t = .error (.guardRaised (m.arrow t) cause) := by
  simp only [passes, guard, raised]

end Machine

namespace Project

variable {p : Project} {now : Timestamp} {event : String} {t : Transition}

theorem dryRun_of_lookup (found : p.machine.lookup event = some t) :
    p.dryRun event = (p.machine.blockOf p.document t).map fun reason =>
      ⟨p.state, t.target, event, t.description, false, reason.isNone, reason⟩ := by
  rw [dryRun, Machine.transition_eq_ok.mpr found]
  rfl

/-- An event is blocked if the guard of its transition says no, and in no other way. -/
theorem fire_blocked_iff (now : Timestamp) (found : p.machine.lookup event = some t) {passed : Bool}
    (asked : p.machine.passes p.document t = .ok passed) (arrow : Arrow) (why : String) :
    (p.fire now event).1 = .error (.blocked arrow why) ↔
      passed = false ∧ arrow = p.machine.arrow t ∧ why = t.blockReason := by
  have declared := Machine.transition_eq_ok.mpr found
  cases passed with
  | false =>
      simp only [run_fire, declared, asked]
      constructor
      · intro blocked
        cases blocked
        exact ⟨True.intro, rfl, rfl⟩
      · rintro ⟨_, rfl, rfl⟩
        rfl
  | true =>
      constructor
      · intro blocked
        cases fire_fails declared asked blocked
      · rintro ⟨impossible, _⟩
        cases impossible

end Project

/-- An option that shows a transition as it is declared. -/
structure Discovery.Shows (o : Discovery) (t : Transition) : Prop where
  event : o.event = t.event
  target : o.target = t.target
  description : o.description = t.description
  guardDescription : o.guardDescription = t.guardDescription

/-- What a project says of an option that discovery lists: whether its event may fire, where that would
lead, and what keeps it from firing, all the same as what firing it tells. -/
structure Project.Foretells (p : Project) (now : Timestamp) (permitted : List String) (o : Discovery)
    (m : Move) (able : Bool) (reason : Option String) : Prop where
  dryRun : p.dryRun o.event = .ok m
  canFire : p.machine.canFire p.document o.event = .ok able
  blockedReason : p.machine.blockedReason p.document o.event = .ok reason
  whether : [o.permitted = true, m.permitted = true, able = true, o.event ∈ permitted, reason = none,
    ∀ arrow why, (p.fire now o.event).1 ≠ .error (.blocked arrow why)].TFAE
  target : m.target = o.target
  why : ∀ arrow why, (p.fire now o.event).1 = .error (.blocked arrow why) →
    why ≠ "" ∧ arrow = ⟨p.state, o.target, o.event⟩ ∧ o.blockedReason = some why ∧
      m.blockedReason = some why ∧ reason = some why

namespace Project

variable {b : Blueprint} {p : Project} {now : Timestamp}

/-- What discovery lists of a transition whose guard has answered. -/
def optionFor (t : Transition) (passed : Bool) : Discovery :=
  ⟨t.event, t.target, t.description, t.guardDescription, if passed then none else some t.blockReason⟩

theorem discover_answered {passing : Transition → Bool}
    (asked : ∀ t ∈ p.machine.transitions, p.machine.passes p.document t = .ok (passing t)) :
    p.discover = .ok (p.machine.transitions.map fun t => optionFor t (passing t)) := by
  apply List.mapM_eq_ok
  intro t member
  rw [Machine.blockOf_of_passes (asked t member)]
  rfl

theorem permittedEvents_answered {passing : Transition → Bool}
    (asked : ∀ t ∈ p.machine.transitions, p.machine.passes p.document t = .ok (passing t)) :
    p.machine.permittedEvents p.document =
      .ok ((p.machine.transitions.filter passing).map Transition.event) := by
  rw [Machine.permittedEvents, List.filterM_eq_ok asked]
  rfl

theorem foretells_option {t : Transition} (found : p.machine.lookup t.event = some t) {passed : Bool}
    (asked : p.machine.passes p.document t = .ok passed) {permitted : List String}
    (listed : t.event ∈ permitted ↔ passed = true) :
    p.Foretells now permitted (optionFor t passed)
      ⟨p.state, t.target, t.event, t.description, false, passed,
        if passed then none else some t.blockReason⟩
      passed (if passed then none else some t.blockReason) where
  dryRun := by
    show p.dryRun t.event = _
    rw [dryRun_of_lookup found, Machine.blockOf_of_passes asked]
    cases passed <;> rfl
  canFire := (Machine.canFire_of_lookup found).trans asked
  blockedReason := (Machine.blockedReason_of_lookup found).trans (Machine.blockOf_of_passes asked)
  whether := by
    have blocked := fire_blocked_iff now found asked
    have never : (∀ arrow why, (p.fire now t.event).1 ≠ .error (.blocked arrow why)) ↔
        passed = true := by
      constructor
      · intro free
        rw [← Bool.not_eq_false]
        exact fun no => free _ _ ((blocked _ _).mpr ⟨no, rfl, rfl⟩)
      · rintro yes arrow why same
        rw [((blocked arrow why).mp same).1] at yes
        cases yes
    simp only [optionFor, Discovery.permitted]
    tfae_have 1 ↔ 3 := by cases passed <;> simp
    tfae_have 2 ↔ 3 := Iff.rfl
    tfae_have 4 ↔ 3 := listed
    tfae_have 5 ↔ 3 := by cases passed <;> simp
    tfae_have 6 ↔ 3 := never
    tfae_finish
  target := rfl
  why := by
    intro arrow why same
    obtain ⟨rfl, rfl, rfl⟩ := (fire_blocked_iff now found asked arrow why).mp same
    exact ⟨t.blockReason_ne, rfl, rfl, rfl, rfl⟩

/-- All ways of looking ahead agree with firing. If the guards of a state answer, its transitions are
listed, in their order, with what firing each of them would tell; an event that fires nothing there is
refused alike, and a guard that raises is reported alike. -/
theorem views_agree {draft : Draft} (built : draft.build = .ok b) (bound : p.machine = .start b p.state)
    (now : Timestamp) :
    ((∀ t ∈ b.transitionsFrom p.state, ∀ g ∈ t.guard, ∃ passed, g.test p.sight = .ok passed) →
      ∃ options permitted, p.discover = .ok options ∧
        p.machine.permittedEvents p.document = .ok permitted ∧
        List.Forall₂ Discovery.Shows options (b.transitionsFrom p.state) ∧
        ∀ o ∈ options, ∃ m able reason, p.Foretells now permitted o m able reason) ∧
    (∀ event, event ∉ (b.transitionsFrom p.state).map Transition.event →
      let refusal := Fault.notConfigured p.state event ((b.transitionsFrom p.state).map Transition.event)
      p.machine.canFire p.document event = .ok false ∧ p.dryRun event = .error refusal ∧
        p.machine.blockedReason p.document event = .error refusal ∧
        p.fire now event = (.error refusal, p)) ∧
    ∀ t ∈ b.transitionsFrom p.state, ∀ g ∈ t.guard, ∀ cause, g.test p.sight = .error cause →
      let raised := Fault.guardRaised ⟨p.state, t.target, t.event⟩ cause
      raised.isTransition = true ∧ p.machine.canFire p.document t.event = .error raised ∧
        p.dryRun t.event = .error raised ∧ p.fire now t.event = (.error raised, p) := by
  have distinct := Draft.build_distinct built
  have leaving : p.machine.transitions = b.transitionsFrom p.state := by
    rw [bound, Machine.transitions_start distinct]
  have found (event : String) (t : Transition) :
      p.machine.lookup event = some t ↔ t ∈ b.transitionsFrom p.state ∧ t.event = event := by
    rw [bound, Machine.lookup_eq_some_iff distinct]
  refine ⟨?_, ?_, ?_⟩
  · intro answers
    have asked (t : Transition) : ∃ passed, t ∈ b.transitionsFrom p.state →
        p.machine.passes p.document t = .ok passed := by
      by_cases member : t ∈ b.transitionsFrom p.state
      · obtain ⟨passed, asked⟩ := Machine.passes_of_answers (m := p.machine) (answers t member)
        exact ⟨passed, fun _ => asked⟩
      · exact ⟨false, fun here => absurd here member⟩
    choose passing asked using asked
    rw [← leaving] at asked
    refine ⟨_, _, discover_answered asked, permittedEvents_answered asked, ?_, ?_⟩
    · rw [leaving, List.forall₂_map_left_iff, List.forall₂_same]
      exact fun t _ => ⟨rfl, rfl, rfl, rfl⟩
    · intro o listed
      obtain ⟨t, member, rfl⟩ := List.mem_map.mp listed
      have here := (found t.event t).mpr ⟨leaving ▸ member, rfl⟩
      refine ⟨_, _, _, foretells_option here (asked t member) ?_⟩
      rw [List.mem_map]
      constructor
      · rintro ⟨other, chosen, same⟩
        obtain ⟨inside, passes⟩ := List.mem_filter.mp chosen
        have again := (found t.event other).mpr ⟨leaving ▸ inside, same⟩
        rw [here] at again
        cases again
        exact passes
      · exact fun passes => ⟨t, List.mem_filter.mpr ⟨member, passes⟩, rfl⟩
  · intro event unlisted refusal
    have none : p.machine.lookup event = none := by
      rw [Option.eq_none_iff_forall_ne_some]
      intro t here
      obtain ⟨member, rfl⟩ := (found event t).mp here
      exact unlisted (List.mem_map_of_mem member)
    have refused : p.machine.transition event = .error refusal := by
      rw [Machine.transition, none, leaving]
      rfl
    refine ⟨?_, ?_, ?_, ?_⟩
    · rw [Machine.canFire, none]
    · rw [dryRun, refused]
      rfl
    · rw [Machine.blockedReason, refused]
      rfl
    · simp only [run_fire, refused]
  · intro t member g guard cause failed raised
    have here := (found t.event t).mpr ⟨member, rfl⟩
    have raises := Machine.passes_of_raises (m := p.machine) guard failed
    refine ⟨rfl, ?_, ?_, ?_⟩
    · exact (Machine.canFire_of_lookup here).trans raises
    · rw [dryRun_of_lookup here, Machine.blockOf, raises]
      rfl
    · simp only [run_fire, Machine.transition_eq_ok.mpr here, raises]
      rfl

/-- A project of the standard type for which nothing is planned yet. -/
def unplanned : Project := .start Standard.blueprint (.sample []) "PlanningActive"

theorem leaving_unplanned :
    Standard.blueprint.transitionsFrom unplanned.state = [Standard.completePlanning] := by
  rw [Standard.blueprint_eq]
  rfl

theorem views_agree_unplanned :
    (∃ options permitted, unplanned.discover = .ok options ∧
      unplanned.machine.permittedEvents unplanned.document = .ok permitted ∧
      List.Forall₂ Discovery.Shows options [Standard.completePlanning] ∧
      ∀ o ∈ options, ∃ m able reason, unplanned.Foretells newYear permitted o m able reason) ∧
    unplanned.fire newYear "review_pass" =
      (.error (.notConfigured "PlanningActive" "review_pass" ["complete_planning"]), unplanned) := by
  obtain ⟨answered, refused, _⟩ := views_agree Standard.build_draft (p := unplanned) rfl newYear
  rw [leaving_unplanned] at answered refused
  constructor
  · apply answered
    intro t member g guard
    obtain rfl := List.mem_singleton.mp member
    obtain rfl := Option.some.inj guard
    exact ⟨false, rfl⟩
  · exact (refused "review_pass" (by decide)).2.2.2

end Project

end Lifecycle
