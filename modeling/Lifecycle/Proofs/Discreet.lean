import Lifecycle.Proofs.Accepted
import Lifecycle.Proofs.Recall
import Lifecycle.Proofs.Unsaved
/-!
Projects that differ only in what their actions left in the journal. Where actions do not read that, no
step can tell the two apart; where they also leave the type of a document alone and bring no reals into
it, what a step has stored is the project as it then stands. -/

namespace Lifecycle

open Attempt (Leaves)

namespace Edit

theorem changePhase_type (name : String) (change : Phase → Except Fault Phase) :
    Leaves Document.type (changePhase name change) := by
  have asks : Leaves Document.type (phase name) := fun _ => rfl
  exact asks.bind fun _ => (Attempt.leaves_ofExcept _).bind fun _ _ => rfl

theorem whereThere_type {edit : String → Edit Unit} (each : ∀ name, Leaves Document.type (edit name))
    (names : List String) : Leaves Document.type (whereThere edit names) := by
  refine Leaves.forM (fun name => ?_) names
  refine Attempt.leaves_get.bind fun d => (Attempt.leaves_ofExcept _).bind fun listed => ?_
  exact Attempt.leaves_ite (each name) (Attempt.leaves_pure _)

theorem startPhases_type (now : Timestamp) (names : List String) :
    Leaves Document.type (startPhases now names) :=
  whereThere_type (fun name => changePhase_type name _) names

theorem afterTransition_type (now : Timestamp) (b : Blueprint) (source : String) (t : Transition) :
    Leaves Document.type (afterTransition now b source t) := by
  have finishes (name : String) : Leaves Document.type (finishPhase now t.failedPhase name) :=
    Attempt.leaves_ite (changePhase_type name _) (changePhase_type name _)
  rw [afterTransition]
  refine Attempt.leaves_ite ?_ (Attempt.leaves_pure _)
  exact (whereThere_type finishes _).bind fun _ => startPhases_type now _

end Edit

/-- A document that still has no reals and is of the type that another is of. -/
def Document.Remains (d edited : Document) : Prop := edited.Typed .exact ∧ edited.type = d.type

/-- An action that does not read the journal and leaves a document without reals and of its type. -/
structure Action.Discreet (a : Action) : Prop where
  blind : ∀ moment d j k, (a moment ⟨d, j⟩).1 = (a moment ⟨d, k⟩).1 ∧
    (a moment ⟨d, j⟩).2.document = (a moment ⟨d, k⟩).2.document
  remains : ∀ now state (piece after : Workpiece), now.Proper → piece.document.Typed .exact →
    a ⟨now, .proper state⟩ piece = (.ok (), after) → piece.document.Remains after.document

/-- A type of which all actions are such. -/
def Blueprint.Discreet (b : Blueprint) : Prop :=
  ∀ t ∈ b.transitions, ∀ a, t.onExit = some a ∨ t.onEntry = some a → Action.Discreet a

/-- A type that leaves the new documents that it fills in without reals and of their type. -/
def Blueprint.FillsIn (b : Blueprint) : Prop :=
  ∀ i, b.initializer = some i → ∀ now inputs (d filled : Document), now.Proper → d.Typed .exact →
    i now inputs d = (.ok (), filled) → d.Remains filled

theorem Machine.transition_declared {b : Blueprint} {state event : String} {t : Transition}
    (declared : (start b state).transition event = .ok t) : t ∈ b.transitions := by
  have all : ∀ entry ∈ (start b state).table, entry.2 ∈ b.transitions := by
    refine (Keyed.foldl_put_keeps (· ∈ b.transitions) _ [] List.nodup_nil (List.forall_mem_nil _) ?_).2
    exact List.forall_mem_map.mpr fun t member => member
  rw [transition_eq_ok] at declared
  exact all _ (Keyed.mem_of_find? declared)

namespace Project

/-- Projects that differ in nothing but their journals. -/
structure Alike (p q : Project) : Prop where
  document : p.document = q.document
  machine : p.machine = q.machine

variable {p q after : Project} {now : Timestamp} {event : String} {t : Transition}

theorem actIfAny_eq_ok {wrap : Fault → Fault} {a : Action} :
    actIfAny now wrap (some a) p = (.ok (), after) ↔
      ∃ piece, a ⟨now, .proper p.state⟩ ⟨p.document, p.journal⟩ = (.ok (), piece) ∧
        after = { p with document := piece.document, journal := piece.journal } := by
  rw [actIfAny, Attempt.run_rethrow, act]
  rcases a ⟨now, .proper p.state⟩ ⟨p.document, p.journal⟩ with ⟨fault | ⟨⟩, piece⟩
  · constructor
    · intro same
      cases same
    · rintro ⟨_, same, _⟩
      cases same
  · constructor
    · intro same
      exact ⟨piece, rfl, (congrArg Prod.snd same).symm⟩
    · rintro ⟨_, same, rfl⟩
      cases same
      rfl

/-- An action does the same whatever the journal holds. -/
theorem actIfAny_alike {wrap : Fault → Fault} {action : Option Action}
    (discreet : ∀ a, action = some a → Action.Discreet a) (alike : p.Alike q)
    (done : actIfAny now wrap action p = (.ok (), after)) :
    ∃ other, actIfAny now wrap action q = (.ok (), other) ∧ after.Alike other := by
  obtain ⟨d, m, j⟩ := p
  obtain ⟨_, _, k⟩ := q
  obtain ⟨⟨⟩, ⟨⟩⟩ := alike
  cases action with
  | none =>
      cases done
      exact ⟨_, rfl, rfl, rfl⟩
  | some a =>
      obtain ⟨piece, acted, rfl⟩ := actIfAny_eq_ok.mp done
      have acted : a ⟨now, .proper m.state⟩ ⟨d, j⟩ = (.ok (), piece) := acted
      obtain ⟨outcome, document⟩ := (discreet a rfl).blind ⟨now, .proper m.state⟩ d j k
      rcases others : a ⟨now, .proper m.state⟩ ⟨d, k⟩ with ⟨result, other⟩
      rw [acted, others] at outcome document
      obtain rfl : Except.ok () = result := outcome
      exact ⟨_, actIfAny_eq_ok.mpr ⟨other, others, rfl⟩, document, rfl⟩

theorem actIfAny_remains {wrap : Fault → Fault} {action : Option Action}
    (discreet : ∀ a, action = some a → Action.Discreet a) (proper : now.Proper)
    (typed : p.document.Typed .exact) (done : actIfAny now wrap action p = (.ok (), after)) :
    p.document.Remains after.document := by
  cases action with
  | none =>
      cases done
      exact ⟨typed, rfl⟩
  | some a =>
      obtain ⟨piece, acted, rfl⟩ := actIfAny_eq_ok.mp done
      exact (discreet a rfl).remains now p.state _ _ proper typed acted

/-- What firing is: a transition is declared, its guard passes, and its actions run in the states that it
leaves and enters. -/
theorem fire_eq_ok :
    fire now event p = (.ok t, after) ↔
      p.machine.transition event = .ok t ∧ p.machine.passes p.document t = .ok true ∧
      ∃ left, actIfAny now (.exitAction (p.machine.arrow t)) t.onExit p = (.ok (), left) ∧
        actIfAny now (.entryAction ⟨p.state, t.target, t.event⟩) t.onEntry
          { left with machine := left.machine.moved t.target } = (.ok (), after) := by
  constructor
  · intro fired
    obtain ⟨declared, passed, _⟩ := fire_ok fired
    refine ⟨declared, passed, ?_⟩
    rw [run_fire, declared] at fired
    simp only [passed] at fired
    rcases exited : actIfAny now (.exitAction (p.machine.arrow t)) t.onExit p with ⟨fault | ⟨⟩, left⟩
    · rw [exited] at fired
      cases fired
    · rw [exited] at fired
      simp only [run_enter] at fired
      refine ⟨left, rfl, ?_⟩
      rcases entered : actIfAny now (.entryAction ⟨p.state, t.target, t.event⟩) t.onEntry
        { left with machine := left.machine.moved t.target } with ⟨fault | ⟨⟩, last⟩
      · rw [entered] at fired
        cases fired
      · rw [entered] at fired
        cases fired
        rfl
  · rintro ⟨declared, passed, left, exited, entered⟩
    rw [run_fire, declared]
    simp only [passed, exited, run_enter, entered]

/-- Firing does the same whatever the journal holds. -/
theorem fire_alike (discreet : p.blueprint.Discreet) (machine : p.machine = .start p.blueprint p.state)
    (alike : p.Alike q) (fired : fire now event p = (.ok t, after)) :
    ∃ other, fire now event q = (.ok t, other) ∧ after.Alike other := by
  obtain ⟨declared, passed, left, exited, entered⟩ := fire_eq_ok.mp fired
  have known : t ∈ p.blueprint.transitions := by
    rw [machine] at declared
    exact Machine.transition_declared declared
  obtain ⟨others, otherExited, sameLeft⟩ :=
    actIfAny_alike (fun a given => discreet t known a (.inl given)) alike exited
  have moved : Alike { left with machine := left.machine.moved t.target }
      { others with machine := others.machine.moved t.target } :=
    ⟨sameLeft.document, congrArg (fun m => m.moved t.target) sameLeft.machine⟩
  obtain ⟨last, otherEntered, sameLast⟩ :=
    actIfAny_alike (fun a given => discreet t known a (.inr given)) moved entered
  rw [alike.machine] at declared passed otherExited
  rw [alike.document] at passed
  rw [state, alike.machine] at otherEntered
  exact ⟨last, fire_eq_ok.mpr ⟨declared, passed, others, otherExited, otherEntered⟩, sameLast⟩

theorem Alike.eventFor (alike : p.Alike q) (event : Option String) :
    p.eventFor event = q.eventFor event := by
  cases event with
  | some name => rfl
  | none =>
      rw [Project.eventFor, Project.eventFor, determineEvent, determineEvent, blueprint, sight, state,
        alike.document, alike.machine]
      rfl

theorem fire_remains (discreet : p.blueprint.Discreet) (machine : p.machine = .start p.blueprint p.state)
    (proper : now.Proper) (typed : p.document.Typed .exact) (fired : fire now event p = (.ok t, after)) :
    p.document.Remains after.document := by
  obtain ⟨declared, _, left, exited, entered⟩ := fire_eq_ok.mp fired
  have known : t ∈ p.blueprint.transitions := by
    rw [machine] at declared
    exact Machine.transition_declared declared
  obtain ⟨leftTyped, leftType⟩ :=
    actIfAny_remains (fun a given => discreet t known a (.inl given)) proper typed exited
  let entering : Project := { left with machine := left.machine.moved t.target }
  have typed : entering.document.Typed .exact := leftTyped
  obtain ⟨afterTyped, afterType⟩ :=
    actIfAny_remains (fun a given => discreet t known a (.inr given)) proper typed entered
  exact ⟨afterTyped, afterType.trans leftType⟩

/-- A project stays bound when its document is edited and its machine moves. -/
theorem Bound.moves {registry : Registry} (bound : p.Bound registry) {moved : Project} {state : String}
    (remains : p.document.Remains moved.document) (machine : moved.machine = p.machine.moved state) :
    moved.Bound registry := by
  have blueprints : moved.blueprint = p.blueprint := by
    rw [Project.blueprint, machine]
    rfl
  have registered : registry.get moved.document.type.display = .ok moved.blueprint := by
    rw [remains.2, blueprints]
    exact bound.registered
  refine ⟨remains.1, registered, ?_⟩
  rw [Project.state, blueprints, machine, bound.machine]
  rfl

end Project

namespace Desk

variable {σ : Type}

/-- Desks that differ in nothing but journals and what was checked. -/
structure Alike (desk other : Desk σ) : Prop where
  project : desk.project.Alike other.project
  store : desk.archive.store = other.archive.store

theorem Alike.withDocument {desk other : Desk σ} (alike : desk.Alike other) (d : Document) :
    (desk.withDocument d).Alike (other.withDocument d) :=
  ⟨⟨rfl, alike.project.machine⟩, alike.store⟩

variable [Backend σ] {desk other after : Desk σ} {registry : Registry} {now : Timestamp}

theorem clear_alike (alike : desk.Alike other) (cleared : clear desk = (.ok (), after)) :
    ∃ last, clear other = (.ok (), last) ∧ after.Alike last := by
  rw [run_clear] at cleared ⊢
  rw [← alike.store]
  rcases held : Backend.holds desk.archive.store with ⟨fault | _ | _, store⟩
  · rw [held] at cleared
    cases cleared
  · rw [held] at cleared
    cases cleared
    exact ⟨_, rfl, alike.project, rfl⟩
  · rw [held] at cleared
    obtain ⟨deleted, rfl⟩ := Prod.mk.inj cleared
    exact ⟨_, Prod.ext deleted rfl, alike.project, rfl⟩

theorem save_remains (typed : desk.project.document.Typed .exact) (proper : now.Proper)
    (saved : save now desk = (.ok (), after)) :
    desk.project.document.Remains after.project.document := by
  obtain ⟨d, stamped, _, type, _, saves⟩ := run_save_typed typed proper
  rw [saves] at saved
  obtain ⟨_, _, same⟩ := deposit_ok saved
  rw [same]
  exact ⟨stamped, type⟩

/-- Saving does the same whatever was checked before. -/
theorem save_alike (alike : desk.Alike other) (typed : desk.project.document.Typed .exact)
    (proper : now.Proper) (saved : save now desk = (.ok (), after)) :
    ∃ last, save now other = (.ok (), last) ∧ after.Alike last := by
  obtain ⟨noted, done, syncedTyped, _⟩ := Document.sync_typed typed proper desk.project.state
  obtain ⟨d, synced, checked, stored, same⟩ := save_ok saved
  rw [synced] at done
  have typed : (d.stamped now).Typed .exact :=
    Document.stamped_typed (Except.ok.inj done ▸ syncedTyped) proper
  obtain ⟨rules, clean⟩ := Blueprint.problems_of_check checked
  have states : desk.project.state = other.project.state :=
    congrArg Machine.state alike.project.machine
  have blueprints : desk.project.blueprint = other.project.blueprint :=
    congrArg Machine.blueprint alike.project.machine
  rw [states, alike.project.document] at synced
  rw [blueprints] at clean
  -- The other desk has checked other documents before, which does not matter for this one.
  have passes : (other.project.blueprint.check (d.stamped now) other.archive.checkers).1 = .ok () :=
    Blueprint.check_of_clean rules (Blueprint.phasesFindings_again typed clean _)
  obtain ⟨checkers, again⟩ := save_fitting synced passes
  have stored : Backend.save (d.stamped now) other.archive.store = (.ok (), after.archive.store) := by
    rw [← alike.store]
    exact stored
  rw [stored] at again
  refine ⟨_, again, ?_, rfl⟩
  rw [same]
  exact ⟨rfl, alike.project.machine⟩

theorem keep_alike (alike : desk.Alike other) (typed : desk.project.document.Typed .exact)
    (proper : now.Proper) (kept : keep now desk = (.ok (), after)) :
    ∃ last, keep now other = (.ok (), last) ∧ after.Alike last := by
  have states : desk.project.state = other.project.state :=
    congrArg Machine.state alike.project.machine
  rw [run_keep] at kept ⊢
  rw [← states]
  split at kept
  · next ended =>
      rw [if_pos ended]
      exact clear_alike alike kept
  · next goes =>
      rw [if_neg goes]
      exact save_alike alike typed proper kept

theorem settle_alike {source : String} {t : Transition} {m : Move} (alike : desk.Alike other)
    (typed : desk.project.document.Typed .exact) (proper : now.Proper)
    (done : settle now source t desk = (.ok m, after)) :
    ∃ last, settle now source t other = (.ok m, last) ∧ after.Alike last := by
  obtain ⟨edited, updated, editedTyped, _⟩ :=
    Edit.afterTransition_keeps typed proper desk.project.blueprint source t
  have blueprints : desk.project.blueprint = other.project.blueprint :=
    congrArg Machine.blueprint alike.project.machine
  rw [settle] at done ⊢
  rw [← blueprints, ← alike.project.document]
  simp only [updated] at done ⊢
  rcases kept : keep now (desk.withDocument edited) with ⟨fault | ⟨⟩, middle⟩
  · rw [kept] at done
    cases done
  · rw [kept] at done
    cases done
    obtain ⟨last, again, same⟩ := keep_alike (alike.withDocument edited) editedTyped proper kept
    exact ⟨last, by rw [again], same⟩

/-- Moving a project does the same whatever its journal holds and whatever was checked before. -/
theorem proceed_alike {event : Option String} {m : Move} (alike : desk.Alike other)
    (bound : desk.project.Bound registry) (discreet : desk.project.blueprint.Discreet)
    (proper : now.Proper) (done : proceed now event desk = (.ok m, after)) :
    ∃ last, proceed now event other = (.ok m, last) ∧ after.Alike last := by
  rw [run_proceed] at done ⊢
  rw [← alike.project.eventFor event]
  cases asked : desk.project.eventFor event with
  | error fault =>
      rw [asked] at done
      cases done
  | ok name =>
      simp only [asked, run_fire] at done ⊢
      rcases fired : desk.project.fire now name with ⟨fault | t, moved⟩
      · rw [fired] at done
        cases done
      · obtain ⟨others, otherFired, sameMoved⟩ :=
          Project.fire_alike discreet bound.machine alike.project fired
        have typed := (Project.fire_remains discreet bound.machine proper bound.typed fired).1
        have states : desk.project.state = other.project.state :=
          congrArg Machine.state alike.project.machine
        simp only [fired, otherFired, ← states] at done ⊢
        have moving : (desk.withProject moved).Alike (other.withProject others) := ⟨sameMoved, alike.store⟩
        exact settle_alike moving typed proper done

section

variable {φ : Type} [FileSystem φ] {desk after : Desk (FileStore φ)} {m : Move}

theorem settle_rests (recalls : FileSystem.Recall φ) {source : String} {t : Transition}
    (bound : desk.project.Bound registry) (there : desk.project.state = t.target)
    (proper : now.Proper) (done : settle now source t desk = (.ok m, after)) :
    after.project.Bound registry ∧ (m.target ≠ noProject → after.Rests registry) := by
  obtain ⟨edited, updated, typed, _⟩ :=
    Edit.afterTransition_keeps bound.typed proper desk.project.blueprint source t
  have type := Edit.afterTransition_type now desk.project.blueprint source t desk.project.document
  rw [updated] at type
  have editing : (desk.withDocument edited).project.Bound registry :=
    bound.moves ⟨typed, type⟩ (rfl : _ = desk.project.machine.moved desk.project.state)
  rw [settle] at done
  simp only [updated] at done
  rcases kept : keep now (desk.withDocument edited) with ⟨fault | ⟨⟩, last⟩
  · rw [kept] at done
    cases done
  · rw [kept] at done
    cases done
    rw [run_keep] at kept
    split at kept
    · next ended =>
        -- Nothing is stored any more, so nothing is claimed of what is.
        have same := clear_project (desk.withDocument edited)
        rw [kept] at same
        refine ⟨?_, fun goes => absurd (there.symm.trans ended) goes⟩
        rw [same]
        exact editing
    · have rests := save_rests recalls editing proper kept
      exact ⟨rests.sound.toBound, fun _ => rests⟩

/-- What was moved remains bound, and if its lifecycle is not over it is what is stored. -/
theorem proceed_rests (recalls : FileSystem.Recall φ) {event : Option String}
    (bound : desk.project.Bound registry) (discreet : desk.project.blueprint.Discreet)
    (proper : now.Proper) (done : proceed now event desk = (.ok m, after)) :
    after.project.Bound registry ∧ after.project.blueprint = desk.project.blueprint ∧
      (m.target ≠ noProject → after.Rests registry) := by
  rw [run_proceed] at done
  cases asked : desk.project.eventFor event with
  | error fault =>
      rw [asked] at done
      cases done
  | ok name =>
      simp only [asked, run_fire] at done
      rcases fired : desk.project.fire now name with ⟨fault | t, moved⟩
      · rw [fired] at done
        cases done
      · obtain ⟨_, _, machine⟩ := Project.fire_ok fired
        have remains := Project.fire_remains discreet bound.machine proper bound.typed fired
        have there : (desk.withProject moved).project.state = t.target := by
          show moved.machine.state = t.target
          rw [machine]
          rfl
        have moving : (desk.withProject moved).project.Bound registry := bound.moves remains machine
        have stays := settle_machine now desk.project.state t (desk.withProject moved)
        simp only [fired] at done
        rw [done] at stays
        obtain ⟨last, rests⟩ := settle_rests recalls moving there proper done
        refine ⟨last, ?_, rests⟩
        show after.project.machine.blueprint = _
        rw [stays, show (desk.withProject moved).project.machine = _ from machine]
        rfl

end

end Desk

end Lifecycle
