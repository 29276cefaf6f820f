import Lifecycle.Proofs.Linear
import Lifecycle.Proofs.Marks
import Lifecycle.Proofs.Rejection
/-!
Whatever happens to a project, its phases get on in four ways only: actions, the creation of a project and
what brings phases up to date after a transition all come down to these. So the status and the times of a
phase that was fresh agree on every run. -/

namespace Lifecycle

open Document (Leads Spares)

namespace Attempt

variable {s α β : Type} {step : s → s → Prop}

/-- A computation gets where it gets by steps, whatever its outcome. -/
def Goes (step : s → s → Prop) (work : Attempt s α) : Prop :=
  ∀ state, Relation.ReflTransGen step state (work state).2

theorem Leaves.goes {work : Attempt s α} (leaves : Leaves id work) : Goes step work := by
  intro state
  rw [show (work state).2 = state from leaves state]

theorem Goes.bind {work : Attempt s α} (first : Goes step work) {next : α → Attempt s β}
    (later : ∀ a, Goes step (next a)) : Goes step (work >>= next) := by
  intro state
  have reached := first state
  rw [run_bind]
  rcases shape : work state with ⟨fault | a, after⟩
  · rw [shape] at reached
    exact reached
  · rw [shape] at reached
    exact reached.trans (later a after)

/-- What looks at the state gets where it gets by steps if it does from what it sees. -/
theorem goes_get {next : s → Attempt s α}
    (later : ∀ state, Relation.ReflTransGen step state (next state state).2) :
    Goes step (get >>= next) := by
  intro state
  rw [run_bind_ok (run_get state)]
  exact later state

theorem Goes.ite {p : Prop} [Decidable p] {work other : Attempt s α} (first : Goes step work)
    (second : Goes step other) : Goes step (if p then work else other) := by
  split
  · exact first
  · exact second

theorem Goes.forM {work : α → Attempt s PUnit} (each : ∀ a, Goes step (work a)) (list : List α) :
    Goes step (list.forM work) := by
  induction list with
  | nil => exact (leaves_pure _).goes
  | cons a rest ih => exact (each a).bind fun _ => ih

end Attempt

open Attempt (Goes)

variable {name : String} {now : Timestamp}

namespace Document

theorem Spares.refl (d : Document) : Spares name d d := fun p found => .inr ⟨p, found, rfl⟩

theorem Spares.of_phases_eq {d edited : Document} (same : edited.phases = d.phases) :
    Spares name d edited := by
  intro p found
  rw [phase_eq_ok, same, ← phase_eq_ok] at found
  exact .inr ⟨p, found, rfl⟩

theorem Spares.leads {d edited : Document} (spares : Spares name d edited) :
    Leads name (now, d) (now, edited) := .single (.aside spares)

theorem Leads.later {start : Timestamp × Document} {d : Document} {before : Timestamp}
    (leads : Leads name start (before, d)) (later : before ≤ now) : Leads name start (now, d) :=
  leads.tail (.pass later)

/-- A step at one time. -/
abbrev StepAt (name : String) (now : Timestamp) (d edited : Document) : Prop :=
  Step name (now, d) (now, edited)

end Document

open Document (StepAt)

namespace Edit

theorem goes_leads {α : Type} {work : Edit α} (goes : Goes (StepAt name now) work) (d : Document) :
    Leads name (now, d) (now, (work d).2) :=
  (goes d).lift (fun d => (now, d)) fun _ _ step => step

theorem phase_goes (target : String) : Goes (StepAt name now) (phase target) :=
  Attempt.Leaves.goes fun _ => rfl

theorem markPhase_goes (way : Phase.Mark) (target : String) :
    Goes (StepAt name now) (markPhase now way target) :=
  fun _ => .single (.mark way target)

/-- A change of a phase that is none of what it says of itself spares every phase. -/
theorem changePhase_goes {change : Phase → Except Fault Phase}
    (same : ∀ p q, change p = .ok q → q.marks = p.marks) (target : String) :
    Goes (StepAt name now) (changePhase target change) := by
  intro d
  rcases changed : changePhase target change d with ⟨fault | ⟨⟩, edited⟩
  · rw [changePhase_error changed]
  · obtain ⟨p, q, there, made, rfl⟩ := changePhase_eq_ok.mp changed
    refine .single (.aside fun other found => .inr ?_)
    by_cases here : target = name
    · subst here
      rw [Document.phase_modifyPhase there] at found
      exact ⟨p, there, (Except.ok.inj found) ▸ same p q made⟩
    · rw [Document.phase_modifyPhase_ne here] at found
      exact ⟨other, found, rfl⟩

theorem iteratePhase_goes (target : String) : Goes (StepAt name now) (iteratePhase target) := by
  refine (changePhase_goes (fun p q made => ?_) target).bind fun _ =>
    (phase_goes target).bind fun _ => (Attempt.leaves_pure _).goes
  obtain ⟨n, _, made⟩ := Except.bind_eq_ok.mp made
  cases made
  rfl

theorem takeMetadata_goes (target key : String) :
    Goes (StepAt name now) (takeMetadata target key) := by
  refine changePhase_goes (fun p q made => ?_) target
  obtain ⟨m, _, made⟩ := Except.bind_eq_ok.mp made
  cases made
  rfl

theorem copyOutput_goes (source target type : String) (test : Artifact → Except Fault Bool) :
    Goes (StepAt name now) (copyOutput source target type test) := by
  refine (phase_goes source).bind fun origin => (phase_goes target).bind fun _ =>
    Goes.bind (Attempt.leaves_ofExcept _).goes fun found => ?_
  cases found with
  | none => exact (Attempt.leaves_throw _).goes
  | some a =>
      refine Goes.bind (Attempt.leaves_ofExcept _).goes fun _ =>
        (changePhase_goes (fun p q made => ?_) target).bind fun _ => (Attempt.leaves_pure _).goes
      obtain ⟨inputs, _, made⟩ := Except.bind_eq_ok.mp made
      cases made
      rfl

theorem whereThere_goes {edit : String → Edit Unit} (each : ∀ target, Goes (StepAt name now) (edit target))
    (names : List String) : Goes (StepAt name now) (whereThere edit names) := by
  apply Goes.forM
  intro target
  exact Goes.bind Attempt.leaves_get.goes fun _ =>
    Goes.bind (Attempt.leaves_ofExcept _).goes fun _ => (each target).ite (Attempt.leaves_pure _).goes

theorem startPhases_goes (names : List String) : Goes (StepAt name now) (startPhases now names) :=
  whereThere_goes (markPhase_goes .start) names

/-- What brings phases up to date after a transition only has phases get on. -/
theorem afterTransition_goes (b : Blueprint) (source : String) (t : Transition) :
    Goes (StepAt name now) (afterTransition now b source t) := by
  refine Goes.ite (Goes.bind (whereThere_goes (fun target => ?_) _) fun _ => startPhases_goes _)
    (Attempt.leaves_pure _).goes
  exact Goes.ite (markPhase_goes .fail target) (markPhase_goes .complete target)

end Edit

/-- An action that touches what a phase says of itself in the four ways only. -/
def Action.Marks (name : String) (action : Action) : Prop :=
  ∀ moment piece,
    Leads name (moment.now, piece.document) (moment.now, (action moment piece).2.document)

theorem Action.ofEdit_marks {α : Type} {edit : Timestamp → Edit α}
    (goes : ∀ now, Goes (StepAt name now) (edit now)) : (Action.ofEdit edit).Marks name := by
  intro moment piece
  have quiet : Goes (StepAt name moment.now) (edit moment.now >>= fun _ => pure ()) :=
    (goes moment.now).bind fun _ => (Attempt.leaves_pure _).goes
  exact Edit.goes_leads quiet piece.document

/-- A type whose actions and whose initializer touch what a phase says of itself in the four ways only. -/
structure Blueprint.Marks (name : String) (b : Blueprint) : Prop where
  exits : ∀ t ∈ b.transitions, ∀ action ∈ t.onExit, action.Marks name
  entries : ∀ t ∈ b.transitions, ∀ action ∈ t.onEntry, action.Marks name
  initializer : ∀ fills ∈ b.initializer, ∀ now inputs d,
    Leads name (now, d) (now, (fills now inputs d).2)

/-- A fresh phase in the place of another spares those of other names. -/
theorem Document.Spares.put {d : Document} {target : String} {inputs : List Artifact} {phases : Table Phase}
    (placed : d.phases.put target (Phase.fresh now inputs) = .ok phases) :
    Spares name d { d with phases } := by
  intro p found
  obtain ⟨entries, given, listed⟩ := phase_eq_ok.mp found
  rcases before : d.phases with old | v
  · rw [before] at placed
    obtain rfl := Except.ok.inj placed
    obtain rfl := Slot.proper.inj given
    rw [Keyed.find?_put] at listed
    by_cases here : target = name
    · rw [if_pos here] at listed
      obtain rfl := Slot.proper.inj (Option.some.inj listed)
      exact .inl (Phase.fresh_marks now inputs)
    · rw [if_neg here] at listed
      exact .inr ⟨p, phase_eq_ok.mpr ⟨old, before, listed⟩, rfl⟩
  · rw [before] at placed
    cases placed

/-- Filling in phases makes fresh ones. -/
theorem Initializer.phases_goes (names : List String) (inputs : Value) :
    Goes (StepAt name now) (Initializer.phases names now inputs) := by
  refine Goes.forM (fun target => ?_) names
  refine Goes.bind (Attempt.leaves_ofExcept _).goes fun source =>
    Goes.bind (Attempt.Leaves.mapM (fun _ => Attempt.leaves_ofExcept _) source).goes fun artifacts =>
    Attempt.goes_get fun d => ?_
  rw [Attempt.ofExcept_bind]
  rcases placed : d.phases.put target (Phase.fresh now artifacts) with fault | phases
  · exact .refl
  · exact .single (.aside (.put placed))

theorem Keyed.mem_of_find?_ofList {κ α : Type} [DecidableEq κ] {entries : List (κ × α)} {k : κ} {a : α}
    (found : find? (ofList entries) k = some a) : (k, a) ∈ entries := by
  have collected (rest : List (κ × α)) (table : Keyed κ α)
      (found : find? (rest.foldl (fun table entry => put table entry.1 entry.2) table) k = some a) :
      (k, a) ∈ rest ∨ find? table k = some a := by
    induction rest generalizing table with
    | nil => exact .inr found
    | cons entry rest ih =>
        rcases ih _ found with later | before
        · exact .inl (List.mem_cons_of_mem entry later)
        · rw [find?_put] at before
          by_cases same : entry.1 = k
          · rw [if_pos same] at before
            obtain rfl := Option.some.inj before
            exact .inl (same ▸ List.mem_cons_self)
          · rw [if_neg same] at before
            exact .inr before
  exact (collected entries [] found).resolve_right nofun

/-- What an event fires is one of the transitions of the type, whether that was accepted or not. -/
theorem Machine.mem_of_transition {b : Blueprint} {state event : String} {t : Transition}
    (declared : (start b state).transition event = .ok t) : t ∈ b.transitions := by
  rw [transition_eq_ok, lookup] at declared
  obtain ⟨u, member, same⟩ := List.mem_map.mp (Keyed.mem_of_find?_ofList declared)
  obtain ⟨-, rfl⟩ := Prod.mk.inj same
  exact member

variable {b : Blueprint}

theorem Runs.leads {action : Option Action} (marks : ∀ act ∈ action, act.Marks name) {moment : Moment}
    {before after : Workpiece} (runs : Runs action moment before after) :
    Leads name (moment.now, before.document) (moment.now, after.document) := by
  cases action with
  | none =>
      obtain rfl : after = before := runs
      exact .refl
  | some action =>
      have reached := marks action rfl moment before
      rw [show action moment before = (.ok (), after) from runs] at reached
      exact reached

namespace Project

/-- Firing an event has phases get on as its actions do, whatever it comes to. -/
theorem fire_leads (now : Timestamp) (marks : b.Marks name) {p : Project}
    (machine : p.machine = .start b p.state)
    (event : String) : Leads name (now, p.document) (now, (fire now event p).2.document) := by
  by_cases goes : ∃ t, p.machine.transition event = .ok t ∧ p.machine.passes p.document t = .ok true
  · obtain ⟨t, declared, passed⟩ := goes
    have member : t ∈ b.transitions := by
      rw [machine] at declared
      exact Machine.mem_of_transition declared
    obtain ⟨result, piece, passage, fired⟩ := fire_passage declared passed now
    have reached : Leads name (now, p.document) (now, piece.document) := by
      cases passage with
      | exitFails has fails =>
          have acted := marks.exits t member _ has ⟨now, .proper p.state⟩ p.piece
          rw [fails] at acted
          exact acted
      | @entryFails entry cause left _ exits has fails =>
          have acted := marks.entries t member _ has ⟨now, .proper t.target⟩ left
          rw [fails] at acted
          exact (exits.leads (marks.exits t member)).trans acted
      | through exits enters =>
          exact (exits.leads (marks.exits t member)).trans (enters.leads (marks.entries t member))
    rw [fired]
    cases result with
    | error fault => exact reached
    | ok => exact reached
  · obtain ⟨fault, _, refused⟩ := fire_refused (fun t declared passed => goes ⟨t, declared, passed⟩) now
    rw [refused]
    exact .refl

theorem fire_machine (now : Timestamp) {p : Project} (machine : p.machine = .start b p.state) (event : String) :
    ∃ state, (fire now event p).2.machine = .start b state := by
  have outcome := fire_outcome now event p
  rcases fired : fire now event p with ⟨fault | t, after⟩
  · exact ⟨p.state, (fire_error fired).trans machine⟩
  · obtain ⟨_, _, moved⟩ := fire_ok fired
    exact ⟨t.target, moved.trans (by rw [machine]; rfl)⟩

end Project

namespace Desk

variable {σ : Type} [Backend σ] {desk : Desk σ}

theorem keep_leads (desk : Desk σ) :
    Leads name (now, desk.project.document) (now, (keep now desk).2.project.document) :=
  (Spares.of_phases_eq (keep_phases now desk)).leads

theorem settle_leads (source : String) (t : Transition) (desk : Desk σ) :
    Leads name (now, desk.project.document) (now, (settle now source t desk).2.project.document) := by
  have goes : Goes (StepAt name now) (Edit.afterTransition now desk.project.blueprint source t) :=
    Edit.afterTransition_goes _ _ _
  have reached := Edit.goes_leads goes desk.project.document
  rcases updated : Edit.afterTransition now desk.project.blueprint source t desk.project.document with
    ⟨fault | ⟨⟩, edited⟩
  · rw [updated] at reached
    rw [settle, updated]
    exact reached
  · rw [updated] at reached
    rw [run_settle updated]
    exact reached.trans (keep_leads (desk.withDocument edited))

/-- Moving a project has its phases get on, whatever it comes to. -/
theorem proceed_leads (marks : b.Marks name) (machine : desk.project.machine = .start b desk.project.state)
    (order : Option String) :
    Leads name (now, desk.project.document) (now, (proceed now order desk).2.project.document) ∧
      ∃ state, (proceed now order desk).2.project.machine = .start b state := by
  rw [run_proceed]
  rcases desk.project.eventFor order with fault | event
  · exact ⟨.refl, desk.project.state, machine⟩
  · simp only
    rw [run_fire]
    have reached := Project.fire_leads now marks machine event
    have standing := Project.fire_machine now machine event
    rcases fired : desk.project.fire now event with ⟨fault | t, moved⟩
    · rw [fired] at reached standing
      exact ⟨reached, standing⟩
    · rw [fired] at reached standing
      refine ⟨reached.trans (settle_leads desk.project.state t (desk.withProject moved)), ?_⟩
      rw [settle_machine]
      exact standing

/-- The life of a phase: its project begins with a fresh one or with none, or it is created; from there on it
is moved, kept, edited in ways that spare the phase, and has phases get on, under a clock that does not go
back. -/
inductive Life (name : String) (b : Blueprint) : Timestamp → Desk σ → Prop where
  | begun {now : Timestamp} {desk : Desk σ} (machine : desk.project.machine = .start b desk.project.state)
      (fresh : desk.project.document.Fresh name) : Life name b now desk
  | created {registry : Registry} {now : Timestamp} {r : Request} {archive after : Archive σ}
      {p : Project} (made : Project.create registry now r archive = (.ok p, after))
      (type : p.blueprint = b) : Life name b now ⟨p, after⟩
  | marked {before now : Timestamp} {desk : Desk σ} (life : Life name b before desk)
      (later : before ≤ now) (way : Phase.Mark) (target : String) :
      Life name b now (onProject (Project.edit (Edit.markPhase now way target)) desk).2
  | edited {before now : Timestamp} {desk : Desk σ} {document : Document}
      (life : Life name b before desk) (later : before ≤ now)
      (spares : Spares name desk.project.document document) : Life name b now (desk.withDocument document)
  | proceeded {before now : Timestamp} {desk : Desk σ} (life : Life name b before desk)
      (later : before ≤ now) (order : Option String) : Life name b now (proceed now order desk).2
  | kept {before now : Timestamp} {desk : Desk σ} (life : Life name b before desk)
      (later : before ≤ now) : Life name b now (keep now desk).2

theorem created_leads (marks : b.Marks name) {registry : Registry} {r : Request}
    {archive after : Archive σ} {p : Project}
    (made : Project.create registry now r archive = (.ok p, after)) (type : p.blueprint = b) :
    p.machine = .start b b.initial ∧ ∃ d : Document, d.Fresh name ∧ Leads name (now, d) (now, p.document) := by
  obtain ⟨_, d, filled, started, _, empty, initialized, begun, machine, same⟩ := Project.create_ok made
  obtain rfl := type.symm.trans (congrArg Machine.blueprint machine)
  refine ⟨machine, d, ?_, ?_⟩
  · intro p found
    obtain ⟨entries, given, listed⟩ := Document.phase_eq_ok.mp found
    obtain rfl := Slot.proper.inj (empty.symm.trans given)
    cases listed
  · have fills : Leads name (now, d) (now, filled) := by
      rw [Blueprint.initialized] at initialized
      rcases has : b.initializer with _ | initializer
      · rw [has] at initialized
        cases initialized
        exact .refl
      · rw [has] at initialized
        have reached := marks.initializer initializer has now r.inputs d
        simp only at initialized
        rcases ran : initializer now r.inputs d with ⟨fault | ⟨⟩, edited⟩
        · rw [ran] at initialized
          cases initialized
        · rw [ran] at initialized reached
          cases initialized
          exact reached
    have starts : Leads name (now, filled) (now, started) := by
      have goes : Goes (StepAt name now) (Edit.startPhases now (b.phasesStartingAt b.initial)) :=
        Edit.startPhases_goes _
      have reached := Edit.goes_leads goes filled
      rw [Edit.result] at begun
      rcases ran : Edit.startPhases now (b.phasesStartingAt b.initial) filled with ⟨fault | ⟨⟩, edited⟩
      · rw [ran] at begun
        cases begun
      · rw [ran] at begun reached
        cases begun
        exact reached
    exact (fills.trans starts).trans (Spares.of_phases_eq same).leads

/-- Whatever happens in the life of a phase, its project started without a phase that is not fresh, and it has
come from there in the four ways only. -/
theorem Life.leads (marks : b.Marks name) (life : Life name b now desk) :
    (∃ state, desk.project.machine = .start b state) ∧
      ∃ start d, Document.Fresh name d ∧ Leads name (start, d) (now, desk.project.document) := by
  induction life with
  | begun machine fresh => exact ⟨⟨_, machine⟩, _, _, fresh, .refl⟩
  | created made type =>
      obtain ⟨machine, d, fresh, reached⟩ := created_leads marks made type
      exact ⟨⟨_, machine⟩, _, d, fresh, reached⟩
  | marked life later way target ih =>
      obtain ⟨machine, start, d, fresh, reached⟩ := ih
      exact ⟨machine, start, d, fresh, (reached.later later).tail (.mark way target)⟩
  | edited life later spares ih =>
      obtain ⟨machine, start, d, fresh, reached⟩ := ih
      exact ⟨machine, start, d, fresh, (reached.later later).trans spares.leads⟩
  | proceeded life later order ih =>
      obtain ⟨⟨state, machine⟩, start, d, fresh, reached⟩ := ih
      obtain ⟨onward, still⟩ := proceed_leads marks
        (machine.trans (congrArg (Machine.start b) (congrArg Machine.state machine).symm)) order
      exact ⟨still, start, d, fresh, (reached.later later).trans onward⟩
  | kept life later ih =>
      obtain ⟨⟨state, machine⟩, start, d, fresh, reached⟩ := ih
      exact ⟨⟨state, (keep_machine _ _).trans machine⟩, start, d, fresh,
        (reached.later later).trans (keep_leads _)⟩

end Desk

/-- The status and the times of a phase that starts fresh agree whatever has happened to it: on every
sequence of starting, completing, failing and reopening phases, and in the whole life of a project whose
actions do no more than that to what its phases say of themselves. -/
theorem Phase.coherent_throughout (name : String) :
    (∀ start now d edited, Document.Fresh name d → Leads name (start, d) (now, edited) →
      ∀ p, edited.phase name = .ok p → p.Coherent) ∧
    ∀ {σ : Type} [Backend σ] (b : Blueprint) (now : Timestamp) (desk : Desk σ), b.Marks name →
      Desk.Life name b now desk → ∀ p, desk.project.document.phase name = .ok p → p.Coherent := by
  constructor
  · intro start now d edited fresh leads p found
    exact fresh.coherent leads found
  · intro σ _ b now desk marks life p found
    obtain ⟨_, start, d, fresh, leads⟩ := life.leads marks
    exact fresh.coherent leads found

/-- Without actions there is nothing to what phases say of themselves but the fresh ones. -/
theorem Course.marks (c : Course) (name : String) : c.blueprint.Marks name where
  exits t member action has := by
    have none := (c.plain t member).1
    rw [Option.isNone_iff_eq_none.mp none] at has
    cases has
  entries t member action has := by
    have none := (c.plain t member).2.1
    rw [Option.isNone_iff_eq_none.mp none] at has
    cases has
  initializer fills has now inputs d := by
    rw [c.fills] at has
    cases has
    exact Edit.goes_leads (Initializer.phases_goes c.phases inputs) d

namespace Standard

theorem startReviewRound_goes : Goes (StepAt name now) (startReviewRound now) := by
  have counts : Goes (StepAt name now) (do let _ ← Edit.iteratePhase "review" : Edit Unit) :=
    (Edit.iteratePhase_goes "review").bind fun _ => (Attempt.leaves_pure ()).goes
  refine (Edit.phase_goes "review").bind fun review => ?_
  exact Goes.ite ((Edit.markPhase_goes .reopen "review").bind fun _ => counts) counts

theorem rework_goes : Goes (StepAt name now) (rework now) := by
  refine (Edit.markPhase_goes .reopen "implementation").bind fun _ =>
    (Edit.iteratePhase_goes "implementation").bind fun _ =>
    (Edit.takeMetadata_goes "implementation" "tasks_approved").bind fun _ => ?_
  exact (Edit.copyOutput_goes _ _ _ _).bind fun _ => (Attempt.leaves_pure ()).goes

theorem marks (name : String) : blueprint.Marks name where
  exits t member action has := by
    rw [blueprint_eq] at member
    rw [onExit_none member] at has
    cases has
  entries t member action has := by
    rw [blueprint_eq] at member
    rcases onEntry_cases member with ⟨noEntry, _⟩ | entry
    · rw [noEntry] at has
      cases has
    · rw [entry] at has
      cases has
      apply Action.ofEdit_marks
      intro now
      rw [entering]
      split
      · exact startReviewRound_goes
      · exact rework_goes
      · exact (Attempt.leaves_pure ()).goes
  initializer fills has now inputs d := by
    cases has
    exact Edit.goes_leads (Initializer.phases_goes phaseNames inputs) d

end Standard

/-- The types that are always at hand do no more to what phases say of themselves. -/
theorem Registry.builtIn_marks (name : String) : ∀ entry ∈ builtIn, entry.2.Marks name := by
  intro entry member
  simp only [builtIn, List.mem_cons, List.not_mem_nil, or_false] at member
  rcases member with rfl | rfl | rfl | rfl
  · exact Standard.marks name
  · exact Exploration.course.marks name
  · exact Design.course.marks name
  · exact Breakdown.course.marks name

namespace Standard

/-- The day after the beginning of 2024. -/
def dayAfter : Timestamp := { newYear with day := 2 }

/-- A project whose review was started, then failed and sent it back, was completed in vain and failed once
more. -/
def sentBack : Desk MemoryStore :=
  let mark now way (desk : Desk MemoryStore) :=
    (Desk.onProject (Project.edit (Edit.markPhase now way "review")) desk).2
  let started := mark newYear .start ⟨reviewed "fail", ⟨⟨none, 0⟩, []⟩⟩
  mark dayAfter .fail (mark dayAfter .complete (Desk.proceed dayAfter none started).2)

/-- A review that is completed without having been started and fails the day after, and the review of the
project that was sent back. -/
theorem reviews_coherent :
    (reviewed "fail").document.Fresh "review" ∧
    (∃ edited p, Leads "review" (newYear, (reviewed "fail").document) (dayAfter, edited) ∧
      edited.phase "review" = .ok p ∧
      p.marks = ⟨.proper .failed, .proper none, .proper (some newYear), .proper (some dayAfter)⟩ ∧
      p.Coherent) ∧
    Desk.Life "review" blueprint dayAfter sentBack ∧
    ∃ p, sentBack.project.document.phase "review" = .ok p ∧ p.status = .proper .failed ∧
      p.startedAt = .proper (some newYear) ∧ p.failedAt = .proper (some dayAfter) ∧ p.Coherent := by
  have later : newYear ≤ dayAfter := by decide
  have fresh : (reviewed "fail").document.Fresh "review" := by
    intro p found
    cases found
    rfl
  have completed : Leads "review" (newYear, (reviewed "fail").document) (newYear, _) :=
    .single (.mark .complete "review")
  have leads := (completed.later later).tail (.mark .fail "review")
  have life : Desk.Life "review" blueprint dayAfter sentBack :=
    (((Desk.Life.begun rfl fresh).marked (le_refl newYear) .start "review").proceeded later none).marked
      (le_refl dayAfter) .complete "review" |>.marked (le_refl dayAfter) .fail "review"
  have there : ((sentBack.project.document.phase "review").toOption.map fun p =>
      (p.status.holds .failed, p.startedAt.holds (some newYear), p.failedAt.holds (some dayAfter))) =
      some (true, true, true) := by
    unfold sentBack reviewed
    rw [blueprint_eq]
    decide +kernel
  obtain ⟨p, found, same⟩ := Option.map_eq_some_iff.mp there
  obtain ⟨status, times⟩ := Prod.mk.inj same
  obtain ⟨started, failed⟩ := Prod.mk.inj times
  have found := ok_of_toOption found
  have ⟨calls, lives⟩ := Phase.coherent_throughout "review"
  refine ⟨fresh, ⟨_, _, leads, rfl, rfl, calls _ _ _ _ fresh leads _ rfl⟩, life, p, found, ?_⟩
  exact ⟨(Slot.holds_iff _ _).mp status, (Slot.holds_iff _ _).mp started,
    (Slot.holds_iff _ _).mp failed, lives blueprint dayAfter sentBack (marks "review") life p found⟩

end Standard

end Lifecycle
