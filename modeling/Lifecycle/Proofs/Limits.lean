import Lifecycle.Proofs.Written
/-!
How deep what is written of a document nests. Only metadata counts against the limit, the metadata of
an artifact for one level more; with what the document declares around it all stays in what can be
read. -/

namespace Lifecycle

open Decimal (Binary64)
open Value

variable {condition : Condition} {real : Binary64 → Bool}

theorem isData_map {entries : List (String × Value)} (distinct : (Keyed.keys entries).Nodup)
    (all : ∀ entry ∈ entries, entry.2.isData real = true) :
    (Value.map entries).isData real = true := by
  have apart : Keyed.Distinct entries := distinct
  rw [isData, decide_eq_true apart, Bool.true_and, entriesAreData_iff]
  exact all

theorem isData_timeText (time : Option Timestamp) : (timeText time).isData real = true := by
  cases time <;> rfl

theorem withinEntries_mono {levels more : Nat} {m : Metadata} (data : (Value.map m).isData real = true)
    (inside : withinEntries levels m = true) (bound : levels ≤ more) :
    withinEntries more m = true :=
  within_mono (levels + 1) (more + 1) data inside (by omega)

theorem within_timeText (time : Option Timestamp) (levels : Nat) :
    (timeText time).within (levels + 1) = true := by
  cases time <;> rfl

/-- What is kept in the metadata of a record of a kind may have so many levels. -/
def room (levels : Nat) : RecordKind → Nat
  | .artifact => levels
  | _ => levels + 1

theorem le_room (levels : Nat) (kind : RecordKind) : room levels kind ≤ levels + 1 := by
  cases kind <;> simp [room]

/-- A condition under which metadata stays in its room. -/
def Condition.Within (condition : Condition) (levels : Nat) : Prop :=
  ∀ kind m, condition kind m → withinEntries (room levels kind) m = true

theorem entriesFit_data {levels : Nat} {m : Metadata} (data : (Value.map m).isData real = true) :
    entriesFit levels m = withinEntries levels m := by
  have all := data_of_mem_entries data
  clear data
  induction m with
  | nil => rfl
  | cons entry rest ih =>
      obtain ⟨key, v⟩ := entry
      have others := ih fun other member => all other (List.mem_cons_of_mem _ member)
      have here := all (key, v) List.mem_cons_self
      cases v with
      | record kind fields => cases here
      | _ =>
          rw [entriesFit, withinEntries, others, Bool.and_comm]
          intro kind fields same
          cases same

/-- A list of records fits if each of them does; artifacts have a level less. -/
theorem itemsFit_iff {α : Type} [Plain α] {kind : RecordKind}
    (shape : ∀ a : α, ∃ fields, Plain.toValue a = .record kind fields) (levels : Nat)
    (list : List α) :
    itemsFit kind (levels + 1) ((list.map Slot.proper).map Slot.toValue) = true ↔
      ∀ a ∈ list, (Plain.toValue a).fits (room levels kind) = true := by
  have less : (if kind = .artifact then levels + 1 - 1 else levels + 1) = room levels kind := by
    cases kind <;> rfl
  induction list with
  | nil => simp [itemsFit]
  | cons a rest ih =>
      obtain ⟨fields, record⟩ := shape a
      simp only [List.map_cons, Slot.toValue, record, itemsFit, List.forall_mem_cons, less, fits]
      simp only [Bool.and_eq_true, ih, ne_eq, not_true_eq_false, decide_false, Nat.zero_lt_succ,
        decide_true, Bool.or_true, and_true]
      exact And.comm

section

variable (data : condition.OnData real)
include data

theorem Artifact.isData_bare {a : Artifact} (typed : a.Typed condition) :
    a.toValue.bare.isData real = true := by
  obtain ⟨type, path, approved, createdAt, metadata, rfl, _, good⟩ := typed.elim
  have kept := data _ _ good
  rw [bare_artifact, bareEntries_data data good]
  apply isData_map
  · show List.Nodup ["type", "path", "approved", "created_at", "metadata"]
    decide
  · simp only [List.forall_mem_cons, kept]
    simp [isData]

theorem isData_artifacts {list : List Artifact} (typed : ∀ a ∈ list, a.Typed condition) :
    (Value.list (list.map fun a => a.toValue.bare)).isData real = true := by
  rw [isData, itemsAreData_iff]
  intro v member
  obtain ⟨a, inside, rfl⟩ := List.mem_map.mp member
  exact Artifact.isData_bare data (typed a inside)

theorem Task.isData_bare {t : Task} (typed : t.Typed condition) :
    t.toValue.bare.isData real = true := by
  obtain ⟨id, name, phase, status, createdAt, updatedAt, startedAt, completedAt, iteration, agent,
    inputs, outputs, metadata, rfl, _, _, _, _, ins, outs, good⟩ := typed.elim
  have kept := data _ _ good
  rw [bare_task, bareEntries_data data good]
  apply isData_map
  · show List.Nodup ["id", "name", "phase", "status", "created_at", "updated_at", "started_at",
      "completed_at", "iteration", "assigned_agent", "inputs", "outputs", "metadata"]
    decide
  · simp only [List.forall_mem_cons, kept, isData_artifacts data ins, isData_artifacts data outs,
      isData_timeText]
    simp [isData]

theorem isData_tasks {list : List Task} (typed : ∀ t ∈ list, t.Typed condition) :
    (Value.list (list.map fun t => t.toValue.bare)).isData real = true := by
  rw [isData, itemsAreData_iff]
  intro v member
  obtain ⟨t, inside, rfl⟩ := List.mem_map.mp member
  exact Task.isData_bare data (typed t inside)

theorem Phase.isData_bare {p : Phase} (typed : p.Typed condition) :
    p.toValue.bare.isData real = true := by
  obtain ⟨status, enabled, createdAt, startedAt, completedAt, failedAt, iteration, inputs, outputs,
    tasks, metadata, rfl, _, _, _, _, ins, outs, all, good⟩ := typed.elim
  have kept := data _ _ good
  rw [bare_phase, bareEntries_data data good]
  apply isData_map
  · show List.Nodup ["status", "enabled", "created_at", "started_at", "completed_at", "failed_at",
      "iteration", "inputs", "outputs", "tasks", "metadata"]
    decide
  · simp only [List.forall_mem_cons, kept, isData_artifacts data ins, isData_artifacts data outs,
      isData_tasks data all, isData_timeText]
    simp [isData]

/-- Of a document in which everything is in its place, only data is written. -/
theorem Document.isData_bare {d : Document} (typed : d.Typed condition) :
    d.toValue.bare.isData real = true := by
  obtain ⟨name, type, branch, description, createdAt, updatedAt, phases, statechart, sessions, rfl, _,
    _, distinct, all, chart, apart⟩ := typed.elim
  obtain ⟨current, noted, rfl, _⟩ := chart.elim
  have phasesData :
      (Value.map (phases.map fun entry => (entry.1, entry.2.toValue.bare))).isData real = true := by
    apply isData_map
    · rw [Keyed.keys, List.map_map]
      exact distinct
    · intro entry member
      obtain ⟨other, inside, rfl⟩ := List.mem_map.mp member
      exact Phase.isData_bare data (all other inside)
  have sessionsData :
      (Value.map (sessions.map fun entry => (entry.1, Value.text entry.2))).isData real = true := by
    apply isData_map
    · rw [Keyed.keys, List.map_map]
      exact apart
    · intro entry member
      obtain ⟨other, _, rfl⟩ := List.mem_map.mp member
      rfl
  have chartData : (Value.map [("current_state", .text current),
      ("updated_at", .text noted.print)]).isData real = true := rfl
  rw [bare_document, bare_statechart]
  apply isData_map
  · show List.Nodup ["name", "type", "branch", "description", "created_at", "updated_at", "phases",
      "statechart", "agent_sessions"]
    decide
  · simp only [List.forall_mem_cons, phasesData, sessionsData, chartData]
    simp [isData]

section

variable {levels : Nat} (inside : condition.Within levels)
include inside

theorem Artifact.within_bare {a : Artifact} (typed : a.Typed condition) :
    a.toValue.bare.within (levels + 2) = true := by
  obtain ⟨type, path, approved, createdAt, metadata, rfl, _, good⟩ := typed.elim
  have kept : withinEntries levels metadata = true := inside _ _ good
  rw [bare_artifact, bareEntries_data data good]
  simp [within, withinEntries, kept]

theorem within_artifacts {list : List Artifact} (typed : ∀ a ∈ list, a.Typed condition) :
    withinItems (levels + 2) (list.map fun a => a.toValue.bare) = true := by
  rw [withinItems_iff]
  intro v member
  obtain ⟨a, place, rfl⟩ := List.mem_map.mp member
  exact Artifact.within_bare data inside (typed a place)

theorem Task.within_bare {t : Task} (typed : t.Typed condition) :
    t.toValue.bare.within (levels + 4) = true := by
  obtain ⟨id, name, phase, status, createdAt, updatedAt, startedAt, completedAt, iteration, agent,
    inputs, outputs, metadata, rfl, _, _, _, _, ins, outs, good⟩ := typed.elim
  have bound := le_room levels .task
  have kept : withinEntries (levels + 2) metadata = true :=
    withinEntries_mono (data _ _ good) (inside _ _ good) (by omega)
  rw [bare_task, bareEntries_data data good]
  simp [within, withinEntries, kept, within_artifacts data inside ins,
    within_artifacts data inside outs, within_timeText]

theorem Phase.within_bare {p : Phase} (typed : p.Typed condition) :
    p.toValue.bare.within (levels + 6) = true := by
  obtain ⟨status, enabled, createdAt, startedAt, completedAt, failedAt, iteration, inputs, outputs,
    tasks, metadata, rfl, _, _, _, _, ins, outs, all, good⟩ := typed.elim
  have bound := le_room levels .phase
  have kept : withinEntries (levels + 4) metadata = true :=
    withinEntries_mono (data _ _ good) (inside _ _ good) (by omega)
  have artifacts : ∀ list : List Artifact, (∀ a ∈ list, a.Typed condition) →
      withinItems (levels + 4) (list.map fun a => a.toValue.bare) = true := by
    intro list typed
    have shallow := within_artifacts data inside typed
    exact within_mono (levels + 3) (levels + 5) (isData_artifacts data typed)
      shallow (by omega)
  have work : withinItems (levels + 4) (tasks.map fun t => t.toValue.bare) = true := by
    rw [withinItems_iff]
    intro v member
    obtain ⟨t, place, rfl⟩ := List.mem_map.mp member
    exact Task.within_bare data inside (all t place)
  rw [bare_phase, bareEntries_data data good]
  simp [within, withinEntries, kept, artifacts inputs ins, artifacts outputs outs, work,
    within_timeText]

theorem Document.within_bare {d : Document} (typed : d.Typed condition) :
    d.toValue.bare.within (levels + 8) = true := by
  obtain ⟨name, type, branch, description, createdAt, updatedAt, phases, statechart, sessions, rfl, _,
    _, _, all, chart, _⟩ := typed.elim
  obtain ⟨current, noted, rfl, _⟩ := chart.elim
  have phasesInside : withinEntries (levels + 6)
      (phases.map fun entry => (entry.1, entry.2.toValue.bare)) = true := by
    rw [withinEntries_iff]
    intro entry member
    obtain ⟨other, place, rfl⟩ := List.mem_map.mp member
    exact Phase.within_bare data inside (all other place)
  have sessionsInside : withinEntries (levels + 6)
      (sessions.map fun entry => (entry.1, Value.text entry.2)) = true := by
    rw [withinEntries_iff]
    intro entry member
    obtain ⟨other, _, rfl⟩ := List.mem_map.mp member
    rfl
  rw [bare_document, bare_statechart]
  simp [within, withinEntries, phasesInside, sessionsInside]

end

/-- The same condition where metadata also stays in its room. -/
def Condition.also (condition : Condition) (levels : Nat) : Condition :=
  fun kind m => condition kind m ∧ withinEntries (room levels kind) m = true

theorem Artifact.fits_iff (levels : Nat) {a : Artifact} (typed : a.Typed condition) :
    a.toValue.fits levels = true ↔ a.Typed (condition.also levels) := by
  obtain ⟨type, path, approved, createdAt, metadata, rfl, _, good⟩ := typed.elim
  have fit : (Artifact.toValue ⟨.proper type, .proper path, .proper approved, .proper createdAt,
      .proper metadata⟩).fits levels = withinEntries levels metadata := by
    rw [← entriesFit_data (data _ _ good)]
    simp [Artifact.toValue, fits, fieldsFit, Slot.toValue, Plain.toValue, FieldUse.ofName]
  rw [fit]
  constructor
  · intro inside
    exact { typed with metadata := ⟨good, inside⟩ }
  · intro stronger
    exact stronger.metadata.2

theorem fits_artifacts (levels : Nat) {list : List Artifact}
    (typed : ∀ a ∈ list, a.Typed condition) :
    itemsFit .artifact (levels + 1) ((list.map Slot.proper).map Slot.toValue) = true ↔
      ∀ a ∈ list, a.Typed (condition.also levels) := by
  rw [itemsFit_iff fun a => ⟨_, rfl⟩]
  constructor
  · intro fit a member
    exact (Artifact.fits_iff data levels (typed a member)).mp (fit a member)
  · intro stronger a member
    exact (Artifact.fits_iff data levels (typed a member)).mpr (stronger a member)

theorem Task.fits_iff (levels : Nat) {t : Task} (typed : t.Typed condition) :
    t.toValue.fits (levels + 1) = true ↔ t.Typed (condition.also levels) := by
  obtain ⟨id, name, phase, status, createdAt, updatedAt, startedAt, completedAt, iteration, agent,
    inputs, outputs, metadata, rfl, _, _, _, _, ins, outs, good⟩ := typed.elim
  have fit : (Task.toValue ⟨.proper id, .proper name, .proper phase, .proper status,
      .proper createdAt, .proper updatedAt, .proper startedAt, .proper completedAt,
      .proper iteration, .proper agent, .ofList inputs, .ofList outputs,
      .proper metadata⟩).fits (levels + 1) =
      (withinEntries (levels + 1) metadata &&
        itemsFit .artifact (levels + 1) ((outputs.map Slot.proper).map Slot.toValue) &&
        itemsFit .artifact (levels + 1) ((inputs.map Slot.proper).map Slot.toValue)) := by
    rw [← entriesFit_data (data _ _ good)]
    cases startedAt <;> cases completedAt <;>
      simp [Task.toValue, fits, fieldsFit, Slot.toValue, Plain.toValue, FieldUse.ofName,
        Many.ofList, FieldUse.kind?, Value.ofOption]
  rw [fit, Bool.and_eq_true, Bool.and_eq_true, fits_artifacts data levels ins,
    fits_artifacts data levels outs]
  constructor
  · rintro ⟨⟨inside, outsFit⟩, insFit⟩
    exact { typed with
      inputs := Many.holds_ofList.mpr insFit
      outputs := Many.holds_ofList.mpr outsFit
      metadata := ⟨good, inside⟩ }
  · intro stronger
    exact ⟨⟨stronger.metadata.2, Many.holds_ofList.mp stronger.outputs⟩,
      Many.holds_ofList.mp stronger.inputs⟩

theorem Phase.fits_iff (levels : Nat) {p : Phase} (typed : p.Typed condition) :
    p.toValue.fits (levels + 1) = true ↔ p.Typed (condition.also levels) := by
  obtain ⟨status, enabled, createdAt, startedAt, completedAt, failedAt, iteration, inputs, outputs,
    tasks, metadata, rfl, _, _, _, _, ins, outs, all, good⟩ := typed.elim
  have fit : (Phase.toValue ⟨.proper status, .proper enabled, .proper createdAt, .proper startedAt,
      .proper completedAt, .proper failedAt, .proper iteration, .ofList inputs, .ofList outputs,
      .ofList tasks, .proper metadata⟩).fits (levels + 1) =
      (withinEntries (levels + 1) metadata &&
        itemsFit .task (levels + 1) ((tasks.map Slot.proper).map Slot.toValue) &&
        itemsFit .artifact (levels + 1) ((outputs.map Slot.proper).map Slot.toValue) &&
        itemsFit .artifact (levels + 1) ((inputs.map Slot.proper).map Slot.toValue)) := by
    rw [← entriesFit_data (data _ _ good)]
    cases startedAt <;> cases completedAt <;> cases failedAt <;>
      simp [Phase.toValue, fits, fieldsFit, Slot.toValue, Plain.toValue, FieldUse.ofName,
        Many.ofList, FieldUse.kind?, Value.ofOption]
  have work : itemsFit .task (levels + 1) ((tasks.map Slot.proper).map Slot.toValue) = true ↔
      ∀ t ∈ tasks, t.Typed (condition.also levels) := by
    rw [itemsFit_iff fun t => ⟨_, rfl⟩]
    constructor
    · intro fit t member
      exact (Task.fits_iff data levels (all t member)).mp (fit t member)
    · intro stronger t member
      exact (Task.fits_iff data levels (all t member)).mpr (stronger t member)
  rw [fit, Bool.and_eq_true, Bool.and_eq_true, Bool.and_eq_true, work,
    fits_artifacts data levels ins, fits_artifacts data levels outs]
  constructor
  · rintro ⟨⟨⟨inside, workFit⟩, outsFit⟩, insFit⟩
    exact { typed with
      inputs := Many.holds_ofList.mpr insFit
      outputs := Many.holds_ofList.mpr outsFit
      tasks := Many.holds_ofList.mpr workFit
      metadata := ⟨good, inside⟩ }
  · intro stronger
    exact ⟨⟨⟨stronger.metadata.2, Many.holds_ofList.mp stronger.tasks⟩,
      Many.holds_ofList.mp stronger.outputs⟩, Many.holds_ofList.mp stronger.inputs⟩

omit data in
theorem entriesFit_phases (levels : Nat) (phases : List (String × Phase)) :
    entriesFit levels ((phases.map fun entry => (entry.1, Slot.proper entry.2)).map
        fun entry => (entry.1, entry.2.toValue)) = true ↔
      ∀ entry ∈ phases, entry.2.toValue.fits levels = true := by
  induction phases with
  | nil => simp [entriesFit]
  | cons entry rest ih =>
      simp only [List.map_cons, entriesFit, Bool.and_eq_true, ih, List.forall_mem_cons]
      exact And.comm

omit data in
theorem entriesFit_sessions (levels : Nat) (sessions : List (String × String)) :
    entriesFit (levels + 1) ((sessions.map fun entry => (entry.1, Slot.proper entry.2)).map
        fun entry => (entry.1, entry.2.toValue)) = true := by
  induction sessions with
  | nil => rfl
  | cons entry rest ih =>
      simp only [List.map_cons, entriesFit, ih, Bool.true_and]
      rfl

/-- A document is shallow enough to be written if the metadata of each of its records is. -/
theorem Document.fits_iff (levels : Nat) {d : Document} (typed : d.Typed condition) :
    d.toValue.fits (levels + 1) = true ↔ d.Typed (condition.also levels) := by
  obtain ⟨name, type, branch, description, createdAt, updatedAt, phases, statechart, sessions, rfl, _,
    _, distinct, all, chart, _⟩ := typed.elim
  obtain ⟨current, noted, rfl, _⟩ := chart.elim
  have fit : (Document.toValue ⟨.proper name, .proper type, .proper branch, .proper description,
      .proper createdAt, .proper updatedAt, .ofEntries phases,
      .proper ⟨.proper current, .proper noted⟩, .ofEntries sessions⟩).fits (levels + 1) =
      entriesFit (levels + 1) ((phases.map fun entry => (entry.1, Slot.proper entry.2)).map
        fun entry => (entry.1, entry.2.toValue)) := by
    have roles := entriesFit_sessions levels sessions
    simp only [Document.toValue, fits, fieldsFit, Slot.toValue, Table.ofEntries, Plain.toValue,
      Statechart.toValue, FieldUse.ofName] at roles ⊢
    simp [roles, -List.map_map]
  rw [fit, entriesFit_phases]
  constructor
  · intro fits
    have stronger : ∀ entry ∈ phases, entry.2.Typed (condition.also levels) := fun entry member =>
      (Phase.fits_iff data levels (all entry member)).mp (fits entry member)
    exact { typed with phases := Table.holds_ofEntries.mpr ⟨distinct, stronger⟩ }
  · intro stronger entry member
    have inner := (Table.holds_ofEntries.mp stronger.phases).2 entry member
    exact (Phase.fits_iff data levels (all entry member)).mpr inner

end

end Lifecycle
