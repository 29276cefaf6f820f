import Lifecycle.Proofs.Firing
import Lifecycle.Proofs.Present
/-!
What a transition does to each phase. Of the phases that are there, those that end where it came from are
over, and of the others those that begin where it went and were pending have started; what is declared of
a phase decides about that phase alone, in whatever order phases are declared. -/

namespace Lifecycle

namespace Keyed

variable {κ α : Type} [DecidableEq κ] {table other : Keyed κ α}

theorem modify_eq_map (distinct : Distinct table) (k : κ) (change : α → α) :
    modify table k change =
      table.map fun entry => (entry.1, if entry.1 = k then change entry.2 else entry.2) := by
  induction table with
  | nil => rfl
  | cons entry rest ih =>
      obtain ⟨fresh, distinct⟩ := List.nodup_cons.mp distinct
      rw [modify, List.map_cons]
      by_cases same : entry.1 = k
      · have others : rest.map (fun entry => (entry.1, if entry.1 = k then change entry.2 else entry.2)) =
            rest := by
          apply map_same
          intro later member
          rw [if_neg]
          rintro rfl
          exact fresh (List.mem_map.mpr ⟨later, member, same.symm⟩)
        rw [if_pos same, if_pos same, others]
      · rw [if_neg same, if_neg same, ih distinct]

/-- Where no key comes twice, the order of the entries does not matter to what is found. -/
theorem find?_perm (distinct : Distinct table) (same : other.Perm table) (k : κ) :
    find? other k = find? table k := by
  have apart : Distinct other := (same.map Prod.fst).nodup_iff.mpr distinct
  apply Option.ext
  intro a
  rw [find?_eq_some_iff apart, find?_eq_some_iff distinct, same.mem_iff]

end Keyed

namespace Document

variable {d : Document} {name : String} {p : Phase}

/-- Changes every phase, each by its name. -/
def mapPhases (change : String → Phase → Phase) (d : Document) : Document :=
  { d with phases := d.phases.map (List.map fun entry => (entry.1, entry.2.map (change entry.1))) }

theorem mapPhases_ofEntries {phases : List (String × Phase)} (given : d.phases = .ofEntries phases)
    (change : String → Phase → Phase) :
    (d.mapPhases change).phases =
      .ofEntries (phases.map fun entry => (entry.1, change entry.1 entry.2)) := by
  rw [mapPhases, given]
  simp only [Table.ofEntries, Slot.map, List.map_map, Function.comp_def]

theorem mapPhases_same {change : String → Phase → Phase} (there : d.phases.Holds fun _ => True)
    (same : ∀ name ∈ d.phaseNames, ∀ p, change name p = p) : d.mapPhases change = d := by
  obtain ⟨phases, given, _⟩ := there.elim
  have kept : phases.map (fun entry => (entry.1, change entry.1 entry.2)) = phases := by
    apply map_same
    intro entry member
    have listed : entry.1 ∈ d.phaseNames := by
      rw [phaseNames_eq given]
      exact List.mem_map_of_mem member
    rw [same entry.1 listed]
  have phasesSame : (d.mapPhases change).phases = d.phases := by
    rw [mapPhases_ofEntries given, kept, given]
  exact congrArg (fun phases => { d with phases }) phasesSame

theorem mapPhases_mapPhases (first next : String → Phase → Phase) (d : Document) :
    (d.mapPhases first).mapPhases next = d.mapPhases fun name p => next name (first name p) := by
  have twice (s : Slot Phase) (name : String) :
      (s.map (first name)).map (next name) = s.map fun p => next name (first name p) := by
    cases s <;> rfl
  rcases given : d.phases with entries | v
  · simp only [mapPhases, given, Slot.map_proper, List.map_map, Function.comp_def, twice]
  · simp only [mapPhases, given, Slot.map]

theorem mapPhases_congr {first next : String → Phase → Phase} (same : ∀ name p, first name p = next name p)
    (d : Document) : d.mapPhases first = d.mapPhases next := by
  rw [show first = next from funext fun name => funext (same name)]

theorem mapPhases_there (there : d.phases.Holds fun _ => True) (change : String → Phase → Phase) :
    (d.mapPhases change).phases.Holds fun _ => True := by
  obtain ⟨phases, given, distinct, _⟩ := there.elim
  rw [mapPhases_ofEntries given, Table.holds_ofEntries, Keyed.Distinct, Keyed.keys, List.map_map]
  exact ⟨distinct, fun _ _ => True.intro⟩

/-- No phase comes or goes, and they stay in their order. -/
theorem mapPhases_phaseNames (change : String → Phase → Phase) (d : Document) :
    (d.mapPhases change).phaseNames = d.phaseNames := by
  rw [phaseNames, phaseNames, mapPhases]
  rcases d.phases with entries | v
  · exact List.map_map
  · rfl

theorem phase_mapPhases (there : d.phase name = .ok p) (change : String → Phase → Phase) :
    (d.mapPhases change).phase name = .ok (change name p) := by
  obtain ⟨entries, given, found⟩ := phase_eq_ok.mp there
  rw [phase_eq_ok, mapPhases, given]
  refine ⟨_, rfl, ?_⟩
  clear given there
  induction entries with
  | nil => cases found
  | cons entry rest ih =>
      rw [List.map_cons, Keyed.find?]
      rw [Keyed.find?] at found
      by_cases same : entry.1 = name
      · rw [if_pos same] at found ⊢
        rw [Option.some.inj found, same]
        rfl
      · rw [if_neg same] at found ⊢
        exact ih found

/-- A change of one phase is a change of all that leaves the others as they are. -/
theorem modifyPhase_eq_mapPhases (there : d.phases.Holds fun _ => True) (found : d.phase name = .ok p)
    (change : Phase → Phase) :
    (d.modifyPhase name fun _ => change p) =
      d.mapPhases fun other q => if other = name then change q else q := by
  obtain ⟨phases, given, distinct, _⟩ := there.elim
  obtain ⟨entries, same, listed⟩ := phase_eq_ok.mp found
  obtain rfl := Slot.proper.inj (given.symm.trans same)
  rw [Keyed.find?_map] at listed
  have here : Keyed.find? phases name = some p := by
    rcases shape : Keyed.find? phases name with _ | q
    · rw [shape] at listed
      cases listed
    · rw [shape] at listed
      cases listed
      rfl
  have onePhase : phases.map (fun entry => (entry.1, if entry.1 = name then change p else entry.2)) =
      phases.map fun entry => (entry.1, if entry.1 = name then change entry.2 else entry.2) := by
    apply List.map_congr_left
    rintro ⟨key, q⟩ member
    by_cases this : key = name
    · have found := (Keyed.find?_eq_some_iff distinct).mpr member
      rw [this, here] at found
      simp only [if_pos this, Option.some.inj found]
    · simp only [if_neg this]
  have phasesSame : (d.modifyPhase name fun _ => change p).phases =
      (d.mapPhases fun other q => if other = name then change q else q).phases := by
    rw [mapPhases_ofEntries given, modifyPhase, given, Table.modify_ofEntries,
      Keyed.modify_eq_map distinct, onePhase]
  exact congrArg (fun phases => { d with phases }) phasesSame

end Document

namespace Edit

variable {d : Document}

/-- An edit for one of the phases that are there, if it is. -/
def atPhase (edit : String → Edit Unit) (name : String) : Edit Unit := do
  if ← Attempt.ofExcept ((← get).phases.lists name) then edit name

theorem run_atPhase (there : d.phases.Holds fun _ => True) (change : String → Phase → Phase)
    (name : String) :
    atPhase (fun name => changePhase name fun p => .ok (change name p)) name d =
      (.ok (), d.mapPhases fun other p => if other = name then change name p else p) := by
  obtain ⟨phases, given, distinct, _⟩ := there.elim
  rw [atPhase, Attempt.run_bind_ok (Attempt.run_get _), Attempt.ofExcept_bind]
  rcases found : Keyed.find? phases name with _ | p
  · have missing : name ∉ d.phaseNames := by
      rw [Document.phaseNames_eq given, ← Keyed.find?_isSome, found]
      nofun
    have lists : d.phases.lists name = .ok false := by
      rw [given, Table.ofEntries, Table.lists, Keyed.has, Keyed.find?_map, found]
      rfl
    rw [lists, Document.mapPhases_same there]
    · rfl
    · intro other listed p
      rw [if_neg]
      rintro rfl
      exact missing listed
  · have asked : d.phase name = .ok p := by
      rw [Document.phase_eq_ok]
      refine ⟨_, given, ?_⟩
      rw [Keyed.find?_map, found]
      rfl
    rw [Document.lists_of_phase asked, ← Document.modifyPhase_eq_mapPhases there asked]
    exact run_changePhase asked rfl

/-- Changing the phases of a list one after the other changes each that is there once. -/
theorem run_whereThere {names : List String} (once : names.Nodup) (there : d.phases.Holds fun _ => True)
    (change : String → Phase → Phase) :
    whereThere (fun name => changePhase name fun p => .ok (change name p)) names d =
      (.ok (), d.mapPhases fun name p => if name ∈ names then change name p else p) := by
  induction names generalizing d with
  | nil =>
      rw [Document.mapPhases_same there fun name _ p => if_neg List.not_mem_nil]
      rfl
  | cons name rest ih =>
      obtain ⟨fresh, once⟩ := List.nodup_cons.mp once
      have here := run_atPhase there change name
      have later := ih once (Document.mapPhases_there there
        fun other p => if other = name then change name p else p)
      refine (Attempt.run_bind_ok here _).trans (later.trans ?_)
      rw [Document.mapPhases_mapPhases]
      refine congrArg (Prod.mk (Except.ok ())) (Document.mapPhases_congr (fun other p => ?_) d)
      by_cases same : other = name
      · rw [same, if_neg fresh, if_pos rfl, if_pos List.mem_cons_self]
      · simp only [List.mem_cons, same, if_false, false_or]

end Edit

namespace Blueprint

variable {b : Blueprint}

theorem mem_phasesWhere (declared : Keyed.Distinct b.phases) {test : PhasePlan → Bool} {name : String} :
    name ∈ b.phasesWhere test ↔ ∃ plan, b.phase? name = some plan ∧ test plan = true := by
  rw [phasesWhere, List.mem_map]
  constructor
  · rintro ⟨⟨key, plan⟩, member, rfl⟩
    obtain ⟨member, passes⟩ := List.mem_filter.mp member
    exact ⟨plan, (Keyed.find?_eq_some_iff declared).mpr member, passes⟩
  · rintro ⟨plan, found, passes⟩
    exact ⟨(name, plan), List.mem_filter.mpr ⟨Keyed.mem_of_find? found, passes⟩, rfl⟩

theorem phasesWhere_nodup (declared : Keyed.Distinct b.phases) (test : PhasePlan → Bool) :
    (b.phasesWhere test).Nodup :=
  List.Nodup.sublist (List.filter_sublist.map Prod.fst) declared

/-- A phase after a transition from a state, by what is declared of phases of its name. -/
def phaseAfter (b : Blueprint) (now : Timestamp) (source : String) (t : Transition) (name : String)
    (p : Phase) : Phase :=
  match b.phase? name with
  | none => p
  | some plan =>
    if plan.finish = some source then
      if t.failedPhase = some name then
        { p with status := .proper .failed, failedAt := .proper (some now) }
      else if p.status.holds .failed then p
      else { p with status := .proper .completed, completedAt := .proper (some now) }
    else if plan.start = some t.target ∧ p.status.holds .pending then
      { p with status := .proper .inProgress, startedAt := .proper (some now) }
    else p

theorem phaseAfter_undeclared {name : String} (undeclared : b.phase? name = none) (now : Timestamp)
    (source : String) (t : Transition) (p : Phase) : b.phaseAfter now source t name p = p := by
  rw [phaseAfter, undeclared]

/-- What has just ended does not start again. -/
theorem start_finished (now : Timestamp) (failing : Option String) (name : String) (p : Phase) :
    (Edit.finished now failing name p).start now = Edit.finished now failing name p := by
  rw [Edit.finished, Phase.start, if_neg]
  split
  · exact Bool.false_ne_true
  · rw [Phase.complete]
    split
    · next failed =>
        rw [(Slot.holds_iff _ _).mp failed]
        exact Bool.false_ne_true
    · exact Bool.false_ne_true

theorem phaseAfter_eq (declared : Keyed.Distinct b.phases) (now : Timestamp) (source : String)
    (t : Transition) (name : String) (p : Phase) :
    b.phaseAfter now source t name p =
      let left := if name ∈ b.phasesEndingAt source then Edit.finished now t.failedPhase name p else p
      if name ∈ b.phasesStartingAt t.target then left.start now else left := by
  simp only [phasesEndingAt, phasesStartingAt, mem_phasesWhere declared, decide_eq_true_eq]
  rw [phaseAfter]
  rcases b.phase? name with _ | plan
  · simp
  · simp only [Option.some.injEq, exists_eq_left']
    by_cases ends : plan.finish = some source
    · rw [if_pos ends, if_pos ends, start_finished, ite_self, Edit.finished]
      rfl
    · rw [if_neg ends, if_neg ends, Phase.start]
      by_cases starts : plan.start = some t.target
      · simp only [starts, true_and, if_true]
      · simp only [starts, false_and, if_false]

/-- The order in which phases are declared does not matter to what becomes of them. -/
theorem phaseAfter_perm {other : Blueprint} (declared : Keyed.Distinct b.phases)
    (same : other.phases.Perm b.phases) : other.phaseAfter = b.phaseAfter := by
  funext now source t name p
  rw [phaseAfter, phaseAfter, phase?, phase?, Keyed.find?_perm declared same]

end Blueprint

namespace Edit

variable {d : Document} {b : Blueprint}

theorem run_afterTransition (declared : Keyed.Distinct b.phases) (there : d.phases.Holds fun _ => True)
    (now : Timestamp) (source : String) (t : Transition) :
    afterTransition now b source t d =
      (.ok (), if source = t.target then d else d.mapPhases (b.phaseAfter now source t)) := by
  rw [afterTransition]
  by_cases same : source = t.target
  · rw [if_neg (not_not_intro same), if_pos same]
    rfl
  · rw [if_pos same, if_neg same]
    have finishes : finishPhase now t.failedPhase =
        fun name => changePhase name fun p => .ok (finished now t.failedPhase name p) := by
      funext name
      rw [finishPhase]
      split
      · next failing => simp only [finished, if_pos failing, failPhase]
      · next failing => simp only [finished, if_neg failing, completePhase]
    -- The second loop starts from what the first left; `phaseAfter_eq` says that this makes no difference.
    have ended := run_whereThere
      (Blueprint.phasesWhere_nodup declared fun plan => plan.finish = some source) there
      (finished now t.failedPhase)
    have started := run_whereThere
      (Blueprint.phasesWhere_nodup declared fun plan => plan.start = some t.target)
      (Document.mapPhases_there there fun name p =>
        if name ∈ b.phasesEndingAt source then finished now t.failedPhase name p else p)
      fun _ => Phase.start now
    rw [finishes]
    refine (Attempt.run_bind_ok ended _).trans (started.trans ?_)
    rw [Document.mapPhases_mapPhases]
    refine congrArg (Prod.mk (Except.ok ())) (Document.mapPhases_congr (fun name p => ?_) d)
    exact (Blueprint.phaseAfter_eq declared now source t name p).symm

/-- What a transition does to the phases of a document never fails, and it does to each what is declared
of it and no more: nothing where the transition stays where it was, and nothing that depends on the order in
which phases are declared. -/
theorem afterTransition_each (declared : Keyed.Distinct b.phases) (there : d.phases.Holds fun _ => True)
    (now : Timestamp) (source : String) (t : Transition) :
    ∃ edited, afterTransition now b source t d = (.ok (), edited) ∧
      (source = t.target → edited = d) ∧
      (source ≠ t.target →
        edited = d.mapPhases (b.phaseAfter now source t) ∧ edited.phaseNames = d.phaseNames ∧
        ∀ name p, d.phase name = .ok p → edited.phase name = .ok (b.phaseAfter now source t name p)) ∧
      ∀ other : Blueprint, other.phases.Perm b.phases →
        afterTransition now other source t d = (.ok (), edited) := by
  refine ⟨_, run_afterTransition declared there now source t, ?_, ?_, ?_⟩
  · intro stays
    rw [if_pos stays]
  · intro moves
    rw [if_neg moves]
    exact ⟨rfl, Document.mapPhases_phaseNames _ d, fun _ _ found => Document.phase_mapPhases found _⟩
  · intro other same
    have declaredToo : Keyed.Distinct other.phases := (same.map Prod.fst).nodup_iff.mpr declared
    rw [run_afterTransition declaredToo there, Blueprint.phaseAfter_perm declared same]

end Edit

/-- A type in which one phase ends where another begins and ends, and a third begins. -/
def Blueprint.crossing : Blueprint where
  __ := Blueprint.sample .unusable
  phases := [
    ("draft", { PhasePlan.named "draft" with finish := some "Start" }),
    ("check", { PhasePlan.named "check" with start := some "Done", finish := some "Start" }),
    ("ship", { PhasePlan.named "ship" with start := some "Done" }),
    ("gone", { PhasePlan.named "gone" with finish := some "Start" })]

/-- A document with pending phases, one that is not declared among them. -/
def Document.crossing : Document where
  __ := Document.sample []
  phases := .ofEntries (["ship", "draft", "check", "loose"].map fun name => (name, .fresh newYear []))

theorem Edit.afterTransition_crossing :
    Keyed.Distinct Blueprint.crossing.phases ∧ Document.crossing.phases.Holds (fun _ => True) ∧
      ∃ edited, Edit.afterTransition newYear .crossing "Start"
          { Transition.plain "Start" "Done" "finish" with failedPhase := some "draft" } .crossing =
        (.ok (), edited) ∧
      edited.phases = .ofEntries [
        ("ship", { Phase.fresh newYear [] with
          status := .proper .inProgress, startedAt := .proper (some newYear) }),
        ("draft", { Phase.fresh newYear [] with
          status := .proper .failed, failedAt := .proper (some newYear) }),
        ("check", { Phase.fresh newYear [] with
          status := .proper .completed, completedAt := .proper (some newYear) }),
        ("loose", .fresh newYear [])] := by
  have declared : Keyed.Distinct Blueprint.crossing.phases := by decide
  have there : Document.crossing.phases.Holds fun _ => True :=
    Table.holds_ofEntries.mpr ⟨by decide, fun _ _ => True.intro⟩
  obtain ⟨edited, done, _, moves, _⟩ := Edit.afterTransition_each declared there newYear "Start"
    { Transition.plain "Start" "Done" "finish" with failedPhase := some "draft" }
  obtain ⟨rfl, _⟩ := moves (by decide)
  exact ⟨declared, there, _, done, rfl⟩

namespace Desk

variable {σ : Type} [Backend σ]

/-- After a move the project is kept with each phase as the transition leaves it. -/
theorem settle_eq {now : Timestamp} {source : String} {t : Transition} {desk : Desk σ}
    (declared : Keyed.Distinct desk.project.blueprint.phases)
    (there : desk.project.document.phases.Holds fun _ => True) (moves : source ≠ t.target) :
    settle now source t desk =
      let kept := keep now (desk.withDocument
        (desk.project.document.mapPhases (desk.project.blueprint.phaseAfter now source t)))
      ((kept.1.mapError fun fault => fault.afterMove (t.move source)).map fun _ => t.move source,
        kept.2) := by
  have updated := Edit.run_afterTransition declared there now source t
  rw [if_neg moves] at updated
  exact run_settle updated

end Desk

end Lifecycle
