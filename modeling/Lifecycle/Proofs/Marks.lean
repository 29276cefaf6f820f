import Lifecycle.Proofs.Present
import Mathlib.Logic.Relation
import Mathlib.Order.Defs.PartialOrder
/-!
What a phase says of itself: its status and the times at which it started, was completed and failed. They
agree with each other in a phase that came from a fresh one by being started, completed, failed and
reopened, in any order, under a clock that does not go back. -/

namespace Lifecycle

namespace Timestamp

/-- How many microseconds after 1970-01-01T00:00 a time lies: in UTC, or in local time. -/
def micros (t : Timestamp) : Int := (t.minutes * 60 + t.second) * 1000000 + t.micro

/-- Which times are no later than others. Local time is neither earlier nor later than UTC. -/
instance : Preorder Timestamp where
  le t u := t.offset.isSome = u.offset.isSome ∧ t.micros ≤ u.micros
  le_refl t := ⟨rfl, Int.le_refl t.micros⟩
  le_trans _ _ _ first next := ⟨first.1.trans next.1, Int.le_trans first.2 next.2⟩

instance (t u : Timestamp) : Decidable (t ≤ u) :=
  inferInstanceAs (Decidable (t.offset.isSome = u.offset.isSome ∧ t.micros ≤ u.micros))

end Timestamp

namespace Phase

/-- What a phase says of itself. -/
structure Marks where
  status : Slot PhaseStatus
  startedAt : Slot (Option Timestamp)
  completedAt : Slot (Option Timestamp)
  failedAt : Slot (Option Timestamp)

def marks (p : Phase) : Marks := ⟨p.status, p.startedAt, p.completedAt, p.failedAt⟩

/-- Pending, with no times. -/
def Marks.fresh : Marks := ⟨.proper .pending, .proper none, .proper none, .proper none⟩

theorem fresh_marks (now : Timestamp) (inputs : List Artifact) : (fresh now inputs).marks = .fresh := rfl

/-- Status and times agree, and no phase ended before it started. -/
structure Coherent (p : Phase) : Prop where
  pending : p.status = .proper .pending →
    p.startedAt = .proper none ∧ p.completedAt = .proper none ∧ p.failedAt = .proper none
  inProgress : p.status = .proper .inProgress →
    (∃ start, p.startedAt = .proper (some start)) ∧ p.completedAt = .proper none ∧
      p.failedAt = .proper none
  completed : p.status = .proper .completed →
    (∃ finish, p.completedAt = .proper (some finish)) ∧ p.failedAt = .proper none
  failed : (∃ failure, p.failedAt = .proper (some failure)) ↔ p.status = .proper .failed
  unfailed : p.status ≠ .proper .failed → p.failedAt = .proper none
  ordered : ∀ start finish, p.startedAt = .proper (some start) →
    p.completedAt = .proper (some finish) ∨ p.failedAt = .proper (some finish) → start ≤ finish

/-- What a phase may say of itself at a time: the four ways to get on leave each other nothing else. A phase
that failed keeps the time at which it was completed, if it was; one that is completed or failed without
having been started has not started. -/
inductive Marks.Ordered (now : Timestamp) : Marks → Prop where
  | pending : Ordered now .fresh
  | inProgress {start : Timestamp} (before : start ≤ now) :
      Ordered now ⟨.proper .inProgress, .proper (some start), .proper none, .proper none⟩
  | completed {start : Option Timestamp} {finish : Timestamp} (order : ∀ s ∈ start, s ≤ finish)
      (before : finish ≤ now) :
      Ordered now ⟨.proper .completed, .proper start, .proper (some finish), .proper none⟩
  | failed {start finish : Option Timestamp} {failure : Timestamp}
      (order : ∀ s ∈ start, s ≤ failure ∧ ∀ f ∈ finish, s ≤ f) (before : failure ≤ now) :
      Ordered now ⟨.proper .failed, .proper start, .proper finish, .proper (some failure)⟩

theorem Marks.Ordered.mono {marks : Marks} {now later : Timestamp} (ordered : marks.Ordered now)
    (after : now ≤ later) : marks.Ordered later := by
  cases ordered with
  | pending => exact .pending
  | inProgress before => exact .inProgress (le_trans before after)
  | completed order before => exact .completed order (le_trans before after)
  | failed order before => exact .failed order (le_trans before after)

theorem Marks.Ordered.coherent {p : Phase} {now : Timestamp} (ordered : p.marks.Ordered now) :
    p.Coherent := by
  obtain ⟨status, enabled, createdAt, startedAt, completedAt, failedAt, iteration, inputs, outputs, tasks,
    metadata⟩ := p
  rw [marks] at ordered
  cases ordered with
  | pending => constructor <;> simp
  | inProgress before => constructor <;> simp
  | completed order before =>
      constructor
      case ordered =>
        simp only [Slot.proper.injEq, Option.some.injEq, reduceCtorEq, or_false]
        rintro s f rfl rfl
        exact order s rfl
      all_goals simp
  | failed order before =>
      constructor
      case ordered =>
        simp only [Slot.proper.injEq, Option.some.injEq]
        rintro s f rfl (rfl | rfl)
        · exact (order s rfl).2 f rfl
        · exact (order s rfl).1
      all_goals simp

/-- The four ways in which a phase gets on. -/
inductive Mark where
  | start | complete | fail | reopen
  deriving DecidableEq, Repr

def mark (now : Timestamp) : Mark → Phase → Phase
  | .start => start now
  | .complete => complete now
  | .fail => fail now
  | .reopen => reopen now

/-- Whichever way a phase gets on, what it says of itself is in order if it was. -/
theorem mark_ordered {p : Phase} {now : Timestamp} (ordered : p.marks.Ordered now) (way : Mark) :
    (p.mark now way).marks.Ordered now := by
  obtain ⟨status, enabled, createdAt, startedAt, completedAt, failedAt, iteration, inputs, outputs, tasks,
    metadata⟩ := p
  rw [marks] at ordered
  -- Reopening needs nothing of what was before; each other way leaves a failed phase failed.
  cases way with
  | start =>
      cases ordered with
      | pending => exact .inProgress (le_refl now)
      | inProgress before => exact .inProgress before
      | completed order before => exact .completed order before
      | failed order before => exact .failed order before
  | complete =>
      cases ordered with
      | pending => exact .completed nofun (le_refl now)
      | inProgress before => exact .completed (fun s same => Option.some.inj same ▸ before) (le_refl now)
      | completed order before =>
          exact .completed (fun s same => le_trans (order s same) before) (le_refl now)
      | failed order before => exact .failed order before
  | fail =>
      cases ordered with
      | pending => exact .failed nofun (le_refl now)
      | inProgress before =>
          exact .failed (fun s same => ⟨Option.some.inj same ▸ before, nofun⟩) (le_refl now)
      | completed order before =>
          exact .failed (fun s same => ⟨le_trans (order s same) before, fun f same' =>
            Option.some.inj same' ▸ order s same⟩) (le_refl now)
      | failed order before =>
          exact .failed (fun s same => ⟨le_trans (order s same).1 before, (order s same).2⟩) (le_refl now)
  | reopen => exact .inProgress (le_refl now)

end Phase

namespace Edit

/-- Has a phase get on in one of the four ways. -/
def markPhase (now : Timestamp) (way : Phase.Mark) (name : String) : Edit Unit :=
  match way with
  | .start => startPhase now name
  | .complete => completePhase now name
  | .fail => failPhase now name
  | .reopen => reopenPhase now name

theorem markPhase_eq (now : Timestamp) (way : Phase.Mark) (name : String) :
    markPhase now way name = changePhase name fun p => .ok (p.mark now way) := by
  cases way <;> rfl

/-- A phase after another has got on: the same, or it is that one. -/
theorem markPhase_phase {now : Timestamp} {way : Phase.Mark} {target name : String} {d : Document}
    {p : Phase} (found : (markPhase now way target d).2.phase name = .ok p) :
    ∃ q, d.phase name = .ok q ∧ (p = q ∨ p = q.mark now way) := by
  rw [markPhase_eq] at found
  rcases marked : changePhase target (fun p => .ok (p.mark now way)) d with ⟨fault | ⟨⟩, edited⟩
  · rw [marked, changePhase_error marked] at found
    exact ⟨p, found, .inl rfl⟩
  · rw [marked] at found
    obtain ⟨q, _, there, same, rfl⟩ := changePhase_eq_ok.mp marked
    obtain rfl := Except.ok.inj same
    by_cases here : target = name
    · subst here
      rw [Document.phase_modifyPhase there] at found
      exact ⟨q, there, .inr (Except.ok.inj found).symm⟩
    · rw [Document.phase_modifyPhase_ne here] at found
      exact ⟨p, found, .inl rfl⟩

end Edit

namespace Document

variable {name : String}

/-- A phase of that name is fresh, if there is one. -/
def Fresh (name : String) (d : Document) : Prop := ∀ p, d.phase name = .ok p → p.marks = .fresh

/-- A phase of that name says of itself what it said before, if it is not a fresh one. -/
def Spares (name : String) (d edited : Document) : Prop :=
  ∀ p, edited.phase name = .ok p → p.marks = .fresh ∨ ∃ q, d.phase name = .ok q ∧ p.marks = q.marks

/-- What happens to a phase: time passes, one of the phases gets on, or it is spared. -/
inductive Step (name : String) : Timestamp × Document → Timestamp × Document → Prop where
  | pass {now later : Timestamp} {d : Document} (after : now ≤ later) : Step name (now, d) (later, d)
  | mark {now : Timestamp} {d : Document} (way : Phase.Mark) (target : String) :
      Step name (now, d) (now, (Edit.markPhase now way target d).2)
  | aside {now : Timestamp} {d edited : Document} (spares : Spares name d edited) :
      Step name (now, d) (now, edited)

/-- What happens to a phase in the course of time. -/
def Leads (name : String) : Timestamp × Document → Timestamp × Document → Prop :=
  Relation.ReflTransGen (Step name)

/-- What a phase of that name says of itself is in order. -/
def Ordered (name : String) (point : Timestamp × Document) : Prop :=
  ∀ p, point.2.phase name = .ok p → p.marks.Ordered point.1

theorem Step.ordered {before after : Timestamp × Document} (step : Step name before after)
    (ordered : Ordered name before) : Ordered name after := by
  intro p found
  cases step with
  | pass later => exact (ordered p found).mono later
  | mark way target =>
      obtain ⟨q, there, rfl | rfl⟩ := Edit.markPhase_phase found
      · exact ordered p there
      · exact Phase.mark_ordered (ordered q there) way
  | aside spares =>
      rcases spares p found with fresh | ⟨q, there, same⟩
      · rw [fresh]
        exact .pending
      · rw [same]
        exact ordered q there

theorem Leads.ordered {before after : Timestamp × Document} (leads : Leads name before after)
    (ordered : Ordered name before) : Ordered name after := by
  induction leads with
  | refl => exact ordered
  | tail _ step ih => exact step.ordered ih

theorem Fresh.ordered {d : Document} (fresh : d.Fresh name) (now : Timestamp) :
    Ordered name (now, d) := by
  intro p found
  rw [fresh p found]
  exact .pending

/-- A phase that was fresh is coherent, whatever has happened to it. -/
theorem Fresh.coherent {d edited : Document} {start now : Timestamp} (fresh : d.Fresh name)
    (leads : Leads name (start, d) (now, edited)) {p : Phase} (found : edited.phase name = .ok p) :
    p.Coherent :=
  (leads.ordered (fresh.ordered start) p found).coherent

end Document

end Lifecycle
